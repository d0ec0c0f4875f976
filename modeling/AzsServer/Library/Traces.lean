import AzsServer.Library.Program
import Mathlib.Computability.Language
import Mathlib.Order.CompletePartialOrder

/-!
# The lines that programs write

The states of a program keep a list of lines, to which the program adds a word.  Over its runs
these words are a language: one program behind another writes a product, a loop the product over
its list.  A loop that an exception may end writes a beginning of such a product.

Where one word lies in two products of the same shape, it need not be cut at the same places.  It
is if the words of the one product are in no place longer than those of the other.
-/

namespace AzsServer
namespace Library

variable {τ α β : Type}

/-! ## Languages -/

/-- The words for a beginning of a list, one word for each element. -/
def upTo (L : α → Language τ) : List α → Language τ
  | [] => 1
  | a :: as => 1 + L a * upTo L as

/-- No word of the first language is longer than one of the second. -/
def NoLonger (L M : Language τ) : Prop := ∀ word ∈ L, ∀ other ∈ M, word.length ≤ other.length

/-- The languages have a common word. -/
def Meet (L M : Language τ) : Prop := ∃ word, word ∈ L ∧ word ∈ M

section Languages

variable {L : α → Language τ} {M : β → Language τ} {as : List α} {bs : List β}
  {first second rest other : Language τ} {related : α → β → Prop} {good : α → Prop}

theorem le_mul_of_one_le (hOne : 1 ≤ rest) : first ≤ first * rest := by
  calc first = first * 1 := (mul_one first).symm
    _ ≤ first * rest := mul_le_mul' le_rfl hOne

theorem one_le_upTo (L : α → Language τ) (as : List α) : 1 ≤ upTo L as := by
  cases as with
  | nil => exact le_rfl
  | cons a as => exact le_add_of_nonneg_right zero_le

/-- A loop that comes to its end has gone through a beginning. -/
theorem prod_le_upTo (L : α → Language τ) (as : List α) : (as.map L).prod ≤ upTo L as := by
  induction as with
  | nil => exact le_rfl
  | cons a as ih =>
      rw [List.map_cons, List.prod_cons]
      calc L a * (as.map L).prod ≤ L a * upTo L as := mul_le_mul' le_rfl ih
        _ ≤ 1 + L a * upTo L as := le_add_of_nonneg_left zero_le

/-- Pairs in which the language of the second element is in that of the first one, if this is as
it should be. -/
theorem prod_le_prod (hGood : ∀ a ∈ as, good a) (hLe : ∀ a b, related a b → good a → M b ≤ L a)
    (hAll : List.Forall₂ related as bs) : (bs.map M).prod ≤ (as.map L).prod := by
  induction hAll with
  | nil => exact le_rfl
  | @cons a b as bs hHead _ ih =>
      obtain ⟨hFirst, hRest⟩ := List.forall_mem_cons.mp hGood
      simp only [List.map_cons, List.prod_cons]
      exact mul_le_mul' (hLe a b hHead hFirst) (ih hRest)

theorem upTo_le_upTo (hGood : ∀ a ∈ as, good a) (hLe : ∀ a b, related a b → good a → M b ≤ L a)
    (hAll : List.Forall₂ related as bs) : upTo M bs ≤ upTo L as := by
  induction hAll with
  | nil => exact le_rfl
  | @cons a b as bs hHead _ ih =>
      obtain ⟨hFirst, hRest⟩ := List.forall_mem_cons.mp hGood
      exact add_le_add le_rfl (mul_le_mul' (hLe a b hHead hFirst) (ih hRest))

namespace NoLonger

theorem one (M : Language τ) : NoLonger 1 M := by
  intro word hWord other _
  rw [(Language.mem_one word).mp hWord]
  exact Nat.zero_le _

theorem add (hFirst : NoLonger first second) (hRest : NoLonger rest second) :
    NoLonger (first + rest) second := by
  rintro word (hWord | hWord)
  · exact hFirst word hWord
  · exact hRest word hWord

theorem mul (hFirst : NoLonger first second) (hRest : NoLonger rest other) :
    NoLonger (first * rest) (second * other) := by
  rintro _ ⟨head, hHead, tail, hTail, rfl⟩ _ ⟨head', hHead', tail', hTail', rfl⟩
  have hHeads := hFirst head hHead head' hHead'
  have hTails := hRest tail hTail tail' hTail'
  simp only [List.length_append]
  omega

theorem prod (hShort : ∀ a b, related a b → NoLonger (L a) (M b))
    (hAll : List.Forall₂ related as bs) : NoLonger (as.map L).prod (bs.map M).prod := by
  induction hAll with
  | nil => exact one 1
  | @cons a b as bs hHead _ ih => exact (hShort a b hHead).mul ih

theorem upTo_prod (hShort : ∀ a b, related a b → NoLonger (L a) (M b))
    (hAll : List.Forall₂ related as bs) : NoLonger (upTo L as) (bs.map M).prod := by
  induction hAll with
  | nil => exact one 1
  | @cons a b as bs hHead _ ih => exact (one _).add ((hShort a b hHead).mul ih)

end NoLonger

namespace Meet

/-- A common word of two products is cut at the same place. -/
theorem mul (hFirst : NoLonger first second) (hRest : NoLonger rest other)
    (hMeet : Meet (first * rest) (second * other)) : Meet first second ∧ Meet rest other := by
  obtain ⟨word, ⟨head, hHead, tail, hTail, hWord⟩, ⟨head', hHead', tail', hTail', hSame⟩⟩ := hMeet
  have hHeads := hFirst head hHead head' hHead'
  have hTails := hRest tail hTail tail' hTail'
  have hEq : head ++ tail = head' ++ tail' := hWord.trans hSame.symm
  have hLength := congrArg List.length hEq
  simp only [List.length_append] at hLength
  obtain ⟨rfl, rfl⟩ := List.append_inj hEq (by omega)
  exact ⟨⟨head, hHead, hHead'⟩, tail, hTail, hTail'⟩

/-- A language without the empty word has no common word with 1. -/
theorem of_one_add (hNil : [] ∉ second) (hMeet : Meet (1 + first) second) : Meet first second := by
  obtain ⟨word, hNone | hSome, hOther⟩ := hMeet
  · rw [(Language.mem_one word).mp hNone] at hOther
    exact absurd hOther hNil
  · exact ⟨word, hSome, hOther⟩

/-- A common word of two loops is one of each pair of bodies. -/
theorem prod (hShort : ∀ a b, related a b → NoLonger (L a) (M b))
    (hGood : ∀ a b, related a b → Meet (L a) (M b) → good a) (hAll : List.Forall₂ related as bs)
    (hMeet : Meet (as.map L).prod (bs.map M).prod) : ∀ a ∈ as, good a := by
  induction hAll with
  | nil => exact fun _ hMem => by cases hMem
  | @cons a b as bs hHead hRest ih =>
      obtain ⟨hFirst, hTail⟩ := Meet.mul (hShort a b hHead) (.prod hShort hRest) hMeet
      exact List.forall_mem_cons.mpr ⟨hGood a b hHead hFirst, ih hTail⟩

/-- A beginning that reaches as far as a whole loop is whole. -/
theorem upTo_prod (hShort : ∀ a b, related a b → NoLonger (L a) (M b)) (hNil : ∀ b, [] ∉ M b)
    (hGood : ∀ a b, related a b → Meet (L a) (M b) → good a) (hAll : List.Forall₂ related as bs)
    (hMeet : Meet (upTo L as) (bs.map M).prod) : ∀ a ∈ as, good a := by
  induction hAll with
  | nil => exact fun _ hMem => by cases hMem
  | @cons a b as bs hHead hRest ih =>
      have hNone : [] ∉ M b * (bs.map M).prod := by
        rintro ⟨head, hIn, tail, -, hEmpty⟩
        obtain ⟨rfl, -⟩ := List.append_eq_nil_iff.mp hEmpty
        exact hNil b hIn
      obtain ⟨hFirst, hTail⟩ := Meet.mul (hShort a b hHead) (.upTo_prod hShort hRest)
        (hMeet.of_one_add hNone)
      exact List.forall_mem_cons.mpr ⟨hGood a b hHead hFirst, ih hTail⟩

end Meet

end Languages

/-! ## Programs -/

variable {ε σ : Type} {log : σ → List τ}

/-- A word of the language has been added to the log. -/
def Adds (log : σ → List τ) (L : Language τ) (s next : σ) : Prop :=
  ∃ lines ∈ L, log next = log s ++ lines

/-- The program returns behind a word of `done`, and throws the exception that can be caught
behind a word of `failed`. -/
structure Writes (log : σ → List τ) (caught : ε) (done failed : Language τ) (m : EStateM ε σ α) :
    Prop where
  done : ∀ s a next, m s = .ok a next → Adds log done s next
  failed : ∀ s next, m s = .error caught next → Adds log failed s next

section Programs

variable {caught : ε} {done failed : Language τ} {m : EStateM ε σ α} {s middle next : σ}

theorem Adds.refl (log : σ → List τ) (s : σ) : Adds log 1 s s :=
  ⟨[], rfl, (List.append_nil _).symm⟩

theorem Adds.trans {L M : Language τ} (hFirst : Adds log L s middle)
    (hRest : Adds log M middle next) : Adds log (L * M) s next := by
  obtain ⟨first, hIn, hLog⟩ := hFirst
  obtain ⟨rest, hInRest, hLogRest⟩ := hRest
  refine ⟨first ++ rest, Language.mem_mul.mpr ⟨first, hIn, rest, hInRest, rfl⟩, ?_⟩
  rw [hLogRest, hLog, List.append_assoc]

theorem Adds.mono {L M : Language τ} (hAdds : Adds log L s next) (hLe : L ≤ M) :
    Adds log M s next := by
  obtain ⟨lines, hIn, hLog⟩ := hAdds
  exact ⟨lines, hLe hIn, hLog⟩

namespace Writes

theorem mono {doneMore failedMore : Language τ} (hWrites : Writes log caught done failed m)
    (hDone : done ≤ doneMore) (hFailed : failed ≤ failedMore) :
    Writes log caught doneMore failedMore m :=
  ⟨fun s a next hRun => (hWrites.done s a next hRun).mono hDone,
    fun s next hRun => (hWrites.failed s next hRun).mono hFailed⟩

theorem pure (a : α) : Writes log caught 1 0 (Pure.pure a : EStateM ε σ α) := by
  refine ⟨fun s b next hRun => ?_, fun s next hRun => ?_⟩
  · cases hRun
    exact .refl log s
  · cases hRun

theorem bind {f : α → EStateM ε σ β} {doneRest failedRest : Language τ}
    (hFirst : Writes log caught done failed m)
    (hRest : ∀ a, Writes log caught doneRest failedRest (f a)) :
    Writes log caught (done * doneRest) (failed + done * failedRest) (m >>= f) := by
  constructor
  · intro s b next hRun
    cases hBegin : m s with
    | ok a middle =>
        rw [bind_of_ok hBegin] at hRun
        exact (hFirst.done s a middle hBegin).trans ((hRest a).done middle b next hRun)
    | error e middle =>
        rw [bind_of_error hBegin] at hRun
        cases hRun
  · intro s next hRun
    cases hBegin : m s with
    | ok a middle =>
        rw [bind_of_ok hBegin] at hRun
        have hAdds := (hFirst.done s a middle hBegin).trans ((hRest a).failed middle next hRun)
        exact hAdds.mono (le_add_of_nonneg_left zero_le)
    | error e middle =>
        rw [bind_of_error hBegin] at hRun
        cases hRun
        exact (hFirst.failed s next hBegin).mono (le_add_of_nonneg_right zero_le)

/-- The result may be dropped. -/
theorem discard (hWrites : Writes log caught done failed m) :
    Writes log caught done failed (discard m) := by
  have hDrop : (Functor.discard m : EStateM ε σ PUnit) = m >>= fun _ => Pure.pure PUnit.unit := rfl
  rw [hDrop]
  refine (hWrites.bind fun _ => .pure PUnit.unit).mono ?_ ?_
  · rw [mul_one]
  · rw [mul_zero, add_zero]

/-- A loop whose body catches the exception. -/
theorem forM {L : α → Language τ} {body : α → EStateM ε σ PUnit}
    (hBody : ∀ a, Writes log caught (L a) 0 (body a)) (as : List α) :
    Writes log caught (as.map L).prod 0 (as.forM body) := by
  induction as with
  | nil => exact .pure PUnit.unit
  | cons a as ih =>
      refine ((hBody a).bind fun _ => ih).mono ?_ ?_
      · rw [List.map_cons, List.prod_cons]
      · rw [mul_zero, add_zero]

end Writes

end Programs

end Library
end AzsServer
