import Mathlib.Data.Nat.Digits.Lemmas
import Mathlib.Tactic

/-!
# Byte strings

The server is written with `std::string`, a sequence of bytes without any
encoding.  Every text of the model is therefore a `List UInt8`; an ASCII
literal of the source is written `ascii "..."`.
-/

namespace AzsServer

/-- A `std::string`: a finite sequence of bytes. -/
abbrev Bytes := List UInt8

/-- The bytes of an ASCII literal of the source. -/
def ascii (text : String) : Bytes :=
  text.toList.map fun c => UInt8.ofNat c.toNat

/-- The part of a string that `c_str()` hands to a C function: everything in
front of the first NUL. -/
def cStr (text : Bytes) : Bytes :=
  text.takeWhile fun c => c ≠ 0

@[simp] theorem cStr_eq_self {text : Bytes} (hNul : (0 : UInt8) ∉ text) :
    cStr text = text := by
  induction text with
  | nil => rfl
  | cons c rest ih =>
      have hHead : c ≠ 0 := fun hZero => hNul (hZero ▸ List.mem_cons_self)
      have hTail : (0 : UInt8) ∉ rest := fun hMem => hNul (List.mem_cons_of_mem c hMem)
      have hRest : List.takeWhile (fun d => decide (d ≠ 0)) rest = rest := ih hTail
      rw [cStr, List.takeWhile_cons_of_pos (by simpa using hHead), hRest]

theorem cStr_append_of_notMem {first second : Bytes} (hNul : (0 : UInt8) ∉ first) :
    cStr (first ++ second) = first ++ cStr second :=
  List.takeWhile_append_of_pos fun c hMem => by
    simpa using fun hZero : c = 0 => hNul (hZero ▸ hMem)

theorem cStr_append_of_mem {first second : Bytes} (hNul : (0 : UInt8) ∈ first) :
    cStr (first ++ second) = cStr first := by
  induction first with
  | nil => cases hNul
  | cons c rest ih =>
      by_cases hZero : c = 0
      · simp [cStr, hZero]
      · have hRest : (0 : UInt8) ∈ rest :=
          (List.mem_cons.mp hNul).resolve_left fun hEq => hZero hEq.symm
        simpa [cStr, hZero] using ih hRest

theorem cStr_subset {text : Bytes} {c : UInt8} (hMem : c ∈ cStr text) : c ∈ text :=
  (List.takeWhile_prefix _).subset hMem

/-- Texts with a separator between them. -/
def separated (sep : Bytes) : List Bytes → Bytes
  | [] => []
  | [part] => part
  | part :: next :: rest => part ++ sep ++ separated sep (next :: rest)

@[simp] theorem separated_cons_cons (sep : Bytes) (c : UInt8) (part : Bytes)
    (rest : List Bytes) :
    separated sep ((c :: part) :: rest) = c :: separated sep (part :: rest) := by
  cases rest with
  | nil => rfl
  | cons next rest => rfl

/-- The separators behind the first parts. -/
theorem separated_append_cons (sep : Bytes) (parts : List Bytes) (part : Bytes)
    (rest : List Bytes) :
    separated sep (parts ++ part :: rest) =
      parts.flatMap (fun first => first ++ sep) ++ separated sep (part :: rest) := by
  induction parts with
  | nil => rfl
  | cons first parts ih =>
      have hRest : ∃ next more, parts ++ part :: rest = next :: more := by
        cases parts with
        | nil => exact ⟨part, rest, rfl⟩
        | cons next parts => exact ⟨next, parts ++ part :: rest, rfl⟩
      obtain ⟨next, more, hNext⟩ := hRest
      rw [List.cons_append, hNext, separated, ← hNext, ih, List.flatMap_cons]
      simp only [List.append_assoc]

theorem separated_ne_nil {sep part : Bytes} (rest : List Bytes) (hPart : part ≠ []) :
    separated sep (part :: rest) ≠ [] := by
  cases rest with
  | nil => exact hPart
  | cons next rest => simp [separated, hPart]

/-- `std::to_string` of a non-negative integer: its decimal digits. -/
def natToString (n : Nat) : Bytes :=
  if n = 0 then [48] else (Nat.digits 10 n).reverse.map fun d => UInt8.ofNat (48 + d)

/-- `std::to_string` of an integer. -/
def intToString (n : Int) : Bytes :=
  if n < 0 then ascii "-" ++ natToString n.natAbs else natToString n.natAbs

example : intToString (-120) = ascii "-120" := by decide

end AzsServer
