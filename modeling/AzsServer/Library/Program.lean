import Mathlib.Tactic

/-!
# Rules for programs with a state and exceptions

A program is a value of `EStateM ε σ α`: it ends with a result or an exception and
keeps the changes of the state in both cases.  `Triple` is total: it speaks about
every way to end.  `Keeps` is the case of one invariant, together with a bound on
the exceptions that can leave the program; its rules follow the constructs of a
program, so an invariant of a long program is proved from its basic steps.
-/

namespace AzsServer
namespace Library

variable {ε σ α β : Type}

/-- From a state with `pre`, the program either returns with `post` or throws with
`fail`. -/
def Triple (pre : σ → Prop) (m : EStateM ε σ α) (post : α → σ → Prop)
    (fail : ε → σ → Prop) : Prop :=
  ∀ s, pre s →
    match m s with
    | .ok a next => post a next
    | .error e next => fail e next

/-- The program keeps an invariant and throws only what `throws` admits. -/
def Keeps (inv : σ → Prop) (throws : ε → Prop) (m : EStateM ε σ α) : Prop :=
  Triple inv m (fun _ => inv) (fun e next => inv next ∧ throws e)

section Evaluation

variable {m n : EStateM ε σ α} {f : α → EStateM ε σ β} {s next : σ} {a : α} {e : ε}

theorem bind_of_ok (hRun : m s = .ok a next) : (m >>= f) s = f a next := by
  show EStateM.bind m f s = _
  rw [EStateM.bind, hRun]

theorem bind_of_error (hRun : m s = .error e next) : (m >>= f) s = .error e next := by
  show EStateM.bind m f s = _
  rw [EStateM.bind, hRun]

@[simp] theorem pure_run (a : α) (s : σ) : (pure a : EStateM ε σ α) s = .ok a s := rfl

@[simp] theorem get_run (s : σ) : (get : EStateM ε σ σ) s = .ok s s := rfl

@[simp] theorem set_run (s next : σ) : (set next : EStateM ε σ PUnit) s = .ok ⟨⟩ next := rfl

@[simp] theorem modify_run (g : σ → σ) (s : σ) :
    (modify g : EStateM ε σ PUnit) s = .ok ⟨⟩ (g s) := rfl

@[simp] theorem modifyGet_run (g : σ → α × σ) (s : σ) :
    (modifyGet g : EStateM ε σ α) s = .ok (g s).1 (g s).2 := rfl

@[simp] theorem throw_run (e : ε) (s : σ) : (throw e : EStateM ε σ α) s = .error e s := rfl

@[simp] theorem pure_bind_run (a : α) (f : α → EStateM ε σ β) (s : σ) :
    (pure a >>= f) s = f a s := rfl

@[simp] theorem get_bind_run (f : σ → EStateM ε σ β) (s : σ) : (get >>= f) s = f s s := rfl

@[simp] theorem set_bind_run (next : σ) (f : PUnit → EStateM ε σ β) (s : σ) :
    (set next >>= f) s = f ⟨⟩ next := rfl

@[simp] theorem modify_bind_run (g : σ → σ) (f : PUnit → EStateM ε σ β) (s : σ) :
    (modify g >>= f) s = f ⟨⟩ (g s) := rfl

@[simp] theorem modifyGet_bind_run (g : σ → α × σ) (f : α → EStateM ε σ β) (s : σ) :
    (modifyGet g >>= f) s = f (g s).1 (g s).2 := rfl

@[simp] theorem throw_bind_run (e : ε) (f : α → EStateM ε σ β) (s : σ) :
    (throw e >>= f) s = .error e s := rfl

@[simp] theorem ite_run (c : Prop) [Decidable c] (s : σ) :
    (if c then m else n) s = if c then m s else n s := by
  split_ifs <;> rfl

end Evaluation

/-- The state in which a program ends. -/
def endState (m : EStateM ε σ α) (s : σ) : σ :=
  match m s with
  | .ok _ next => next
  | .error _ next => next

theorem endState_bind_of_ok {m : EStateM ε σ α} {f : α → EStateM ε σ β} {s next : σ} {a : α}
    (hRun : m s = .ok a next) : endState (m >>= f) s = endState (f a) next := by
  rw [endState, bind_of_ok hRun]
  rfl

theorem endState_discard_eq (m : EStateM ε σ α) (s : σ) :
    endState (discard m) s = endState m s := by
  show endState (EStateM.map (fun _ => PUnit.unit) m) s = _
  unfold endState EStateM.map
  cases m s with
  | ok a next => rfl
  | error e next => rfl

theorem endState_discard {m : EStateM ε σ α} {s next : σ} {a : α} (hRun : m s = .ok a next) :
    endState (discard m) s = next := by
  rw [endState_discard_eq, endState, hRun]

namespace Triple

variable {pre : σ → Prop} {post : α → σ → Prop} {fail : ε → σ → Prop}

theorem bind {m : EStateM ε σ α} {f : α → EStateM ε σ β} {after : β → σ → Prop}
    (hFirst : Triple pre m post fail) (hRest : ∀ a, Triple (post a) (f a) after fail) :
    Triple pre (m >>= f) after fail := by
  intro s hPre
  have hEnd := hFirst s hPre
  cases hRun : m s with
  | ok a next =>
      rw [hRun] at hEnd
      rw [bind_of_ok hRun]
      exact hRest a next hEnd
  | error e next =>
      rw [hRun] at hEnd
      rw [bind_of_error hRun]
      exact hEnd

end Triple

namespace Keeps

variable {inv : σ → Prop} {throws : ε → Prop}

theorem pure (a : α) : Keeps inv throws (Pure.pure a : EStateM ε σ α) := fun _ hInv => hInv

theorem bind {m : EStateM ε σ α} {f : α → EStateM ε σ β}
    (hFirst : Keeps inv throws m) (hRest : ∀ a, Keeps inv throws (f a)) :
    Keeps inv throws (m >>= f) :=
  Triple.bind hFirst hRest

/-- A larger set of exceptions. -/
theorem weaken {more : ε → Prop} {m : EStateM ε σ α} (hKeeps : Keeps inv throws m)
    (hMore : ∀ e, throws e → more e) : Keeps inv more m := by
  intro s hInv
  have hEnd := hKeeps s hInv
  cases hRun : m s with
  | ok a next =>
      rw [hRun] at hEnd
      exact hEnd
  | error e next =>
      rw [hRun] at hEnd
      exact ⟨hEnd.1, hMore e hEnd.2⟩

theorem get : Keeps inv throws (MonadState.get : EStateM ε σ σ) := fun _ hInv => hInv

theorem modify {f : σ → σ} (hStep : ∀ s, inv s → inv (f s)) :
    Keeps inv throws (MonadState.modifyGet (fun s => (PUnit.unit, f s)) : EStateM ε σ PUnit) :=
  fun s hInv => hStep s hInv

theorem throw {e : ε} (hThrows : throws e) :
    Keeps inv throws (MonadExcept.throw e : EStateM ε σ α) := fun _ hInv => ⟨hInv, hThrows⟩

theorem ite {c : Prop} [Decidable c] {m n : EStateM ε σ α} (hThen : Keeps inv throws m)
    (hElse : Keeps inv throws n) : Keeps inv throws (if c then m else n) := by
  split_ifs
  · exact hThen
  · exact hElse

/-- A loop over a list keeps what its body keeps. -/
theorem forM {body : α → EStateM ε σ PUnit} (hBody : ∀ a, Keeps inv throws (body a))
    (as : List α) : Keeps inv throws (as.forM body) := by
  induction as with
  | nil => exact pure PUnit.unit
  | cons a as ih => exact bind (hBody a) fun _ => ih

theorem inv_endState {m : EStateM ε σ α} (hKeeps : Keeps inv throws m) {s : σ} (hInv : inv s) :
    inv (endState m s) := by
  have hEnd := hKeeps s hInv
  unfold endState
  cases hRun : m s with
  | ok a next =>
      rw [hRun] at hEnd
      exact hEnd
  | error e next =>
      rw [hRun] at hEnd
      exact hEnd.1

end Keeps

/-! ## Programs that do not see a part of the state -/

/-- The end of a program, seen through a map of the states. -/
def viewed (view : σ → σ) : EStateM.Result ε σ α → EStateM.Result ε σ α
  | .ok a s => .ok a (view s)
  | .error e s => .error e (view s)

/-- The program does not see what a map of the states hides: from the image of a state it
comes to the image of its end, with the same result. -/
def Blind (view : σ → σ) (m : EStateM ε σ α) : Prop := ∀ s, m (view s) = viewed view (m s)

namespace Blind

variable {view : σ → σ}

theorem pure (a : α) : Blind view (Pure.pure a : EStateM ε σ α) := fun _ => rfl

theorem throw (e : ε) : Blind view (MonadExcept.throw e : EStateM ε σ α) := fun _ => rfl

theorem bind {m : EStateM ε σ α} {f : α → EStateM ε σ β} (hFirst : Blind view m)
    (hRest : ∀ a, Blind view (f a)) : Blind view (m >>= f) := by
  intro s
  have hView := hFirst s
  cases hRun : m s with
  | ok a next =>
      rw [hRun] at hView
      rw [bind_of_ok hRun, bind_of_ok hView]
      exact hRest a next
  | error e next =>
      rw [hRun] at hView
      rw [bind_of_error hRun, bind_of_error hView]
      rfl

theorem ite {c : Prop} [Decidable c] {m n : EStateM ε σ α} (hThen : Blind view m)
    (hElse : Blind view n) : Blind view (if c then m else n) := by
  split_ifs
  · exact hThen
  · exact hElse

/-- A part of the state that is not hidden may be read. -/
theorem read {f : σ → EStateM ε σ β} (hSame : ∀ s, f (view s) = f s)
    (hRest : ∀ s, Blind view (f s)) : Blind view (get >>= f) := by
  intro s
  show f (view s) (view s) = viewed view (f s s)
  rw [hSame]
  exact hRest s s

theorem modify {f : σ → σ} (hSame : ∀ s, f (view s) = view (f s)) :
    Blind view (MonadState.modifyGet (fun s => (PUnit.unit, f s)) : EStateM ε σ PUnit) :=
  fun s => congrArg (EStateM.Result.ok PUnit.unit) (hSame s)

theorem endState_eq {m : EStateM ε σ α} (hBlind : Blind view m) (s : σ) :
    endState m (view s) = view (endState m s) := by
  unfold endState
  rw [hBlind s]
  cases m s with
  | ok a next => rfl
  | error e next => rfl

end Blind

end Library
end AzsServer
