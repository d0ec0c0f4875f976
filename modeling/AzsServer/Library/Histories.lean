import AzsServer.Library.RowTable
import Mathlib.Data.List.Forall2
import Mathlib.Data.List.ModifyLast

/-!
# Histories

A table is a history if its rows stay: each keeps its key and changes at most in a way
that a relation admits, and new rows come behind the old ones.  The rows of a history may
be spans of time.  Spans follow one another if each ends before the next one starts; this
survives a new span that starts now and a last span that is extended up to now.
-/

namespace AzsServer
namespace Library

/-- Pointwise relations compose. -/
theorem forall₂_trans {β : Type*} {S : β → β → Prop} (hTrans : ∀ a b c, S a b → S b c → S a c)
    {as bs cs : List β} (hFirst : List.Forall₂ S as bs) (hSecond : List.Forall₂ S bs cs) :
    List.Forall₂ S as cs := by
  induction hFirst generalizing cs with
  | nil =>
      cases hSecond
      exact .nil
  | cons hHead _ ih =>
      cases hSecond with
      | cons hNext hRest => exact .cons (hTrans _ _ _ hHead hNext) (ih hRest)

/-! ## Tables whose rows stay -/

namespace RowTable

variable {α : Type*} {R : α → α → Prop} {t u v : RowTable α}

/-- The rows of the one table are still there in the other one, each changed as `R` admits;
the new rows stand behind them. -/
def Continues (R : α → α → Prop) (t u : RowTable α) : Prop :=
  ∃ kept new, u.rows = kept ++ new ∧
    List.Forall₂ (fun r s : Int × α => s.1 = r.1 ∧ R r.2 s.2) t.rows kept

theorem Continues.refl (hRefl : ∀ a, R a a) (t : RowTable α) : Continues R t t :=
  ⟨t.rows, [], (List.append_nil _).symm,
    List.forall₂_same.mpr fun row _ => ⟨rfl, hRefl row.2⟩⟩

theorem Continues.trans (hTrans : ∀ a b c, R a b → R b c → R a c) (hFirst : Continues R t u)
    (hSecond : Continues R u v) : Continues R t v := by
  obtain ⟨kept, new, hRows, hKept⟩ := hFirst
  obtain ⟨later, newer, hRowsV, hLater⟩ := hSecond
  rw [hRows] at hLater
  -- the rows that were kept first stand in front of those that came in between
  have hTake := (List.forall₂_take_append later kept new hLater.flip).flip
  refine ⟨later.take kept.length, later.drop kept.length ++ newer, ?_, ?_⟩
  · rw [hRowsV, ← List.append_assoc, List.take_append_drop]
  · refine forall₂_trans (fun r s q hRow hNext => ?_) hKept hTake
    exact ⟨hNext.1.trans hRow.1, hTrans _ _ _ hRow.2 hNext.2⟩

theorem continues_insert (hRefl : ∀ a, R a a) (t : RowTable α) (a : α) :
    Continues R t (t.insert a) :=
  ⟨t.rows, [(t.nextId, a)], rfl, List.forall₂_same.mpr fun row _ => ⟨rfl, hRefl row.2⟩⟩

/-- A change of the rows under a key. -/
theorem continues_updateId (hRefl : ∀ a, R a a) {id : Int} {f : α → α}
    (hChange : ∀ row ∈ t.rows, row.1 = id → R row.2 (f row.2)) :
    Continues R t (t.updateId id f) := by
  refine ⟨(t.updateId id f).rows, [], (List.append_nil _).symm, ?_⟩
  rw [updateId_rows, List.forall₂_map_right_iff, List.forall₂_same]
  intro row hMem
  split_ifs with hId
  · exact ⟨rfl, hChange row hMem hId⟩
  · exact ⟨rfl, hRefl row.2⟩

/-- Without a row under the key nothing changes. -/
theorem updateId_eq_self {id : Int} {f : α → α} (hNone : ∀ row ∈ t.rows, row.1 ≠ id) :
    t.updateId id f = t := by
  ext1
  rw [updateId_rows]
  have hSame : ∀ row ∈ t.rows, (if row.1 = id then (row.1, f row.2) else row) = row :=
    fun row hMem => if_neg (hNone row hMem)
  exact (List.map_congr_left hSame).trans (List.map_id' t.rows)

end RowTable

/-! ## Spans that follow one another -/

section Spans

variable {α τ : Type*} [Preorder τ] {start stop : α → τ} {now later : τ} {spans init : List α}
variable {last : α}

/-- Every span ends behind its start, in front of the starts of the later ones and not
after `now`. -/
structure FollowOneAnother (start stop : α → τ) (now : τ) (spans : List α) : Prop where
  each : ∀ span ∈ spans, start span ≤ stop span ∧ stop span ≤ now
  order : spans.Pairwise fun earlier later => stop earlier ≤ start later

theorem FollowOneAnother.mono (hSpans : FollowOneAnother start stop now spans)
    (hNow : now ≤ later) : FollowOneAnother start stop later spans :=
  ⟨fun span hMem => ⟨(hSpans.each span hMem).1, (hSpans.each span hMem).2.trans hNow⟩,
    hSpans.order⟩

/-- A new span that starts and ends now. -/
theorem FollowOneAnother.concat (hSpans : FollowOneAnother start stop now spans)
    (hStart : start last = now) (hStop : stop last = now) :
    FollowOneAnother start stop now (spans ++ [last]) := by
  constructor
  · intro span hMem
    rcases List.mem_append.mp hMem with hOld | hNew
    · exact hSpans.each span hOld
    · rw [List.mem_singleton.mp hNew, hStart, hStop]
      exact ⟨le_rfl, le_rfl⟩
  · rw [List.pairwise_append]
    refine ⟨hSpans.order, List.pairwise_singleton _ _, fun earlier hMem span hNew => ?_⟩
    rw [List.mem_singleton.mp hNew, hStart]
    exact (hSpans.each earlier hMem).2

/-- The last span takes another end, which is not before its start and not after now. -/
theorem FollowOneAnother.modifyLast (hSpans : FollowOneAnother start stop now spans)
    {f : α → α} (hStart : ∀ a, start (f a) = start a)
    (hStop : ∀ a, stop (f a) = stop a ∨ stop (f a) = now) :
    FollowOneAnother start stop now (spans.modifyLast f) := by
  rcases List.eq_nil_or_concat' spans with rfl | ⟨init, last, rfl⟩
  · exact hSpans
  obtain ⟨hBefore, -, hOrder⟩ := List.pairwise_append.mp hSpans.order
  obtain ⟨hSpan, hNow⟩ := hSpans.each last (List.mem_append_right init List.mem_cons_self)
  rw [List.modifyLast_concat]
  constructor
  · intro span hMem
    rcases List.mem_append.mp hMem with hOld | hNew
    · exact hSpans.each span (List.mem_append_left _ hOld)
    · rw [List.mem_singleton.mp hNew, hStart]
      rcases hStop last with hSame | hEnd
      · rw [hSame]
        exact ⟨hSpan, hNow⟩
      · rw [hEnd]
        exact ⟨hSpan.trans hNow, le_rfl⟩
  · rw [List.pairwise_append]
    refine ⟨hBefore, List.pairwise_singleton _ _, fun earlier hMem span hNew => ?_⟩
    rw [List.mem_singleton.mp hNew, hStart]
    exact hOrder earlier hMem last List.mem_cons_self

end Spans

end Library
end AzsServer
