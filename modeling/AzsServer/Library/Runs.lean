import Mathlib.Data.List.Basic
import Mathlib.Data.List.Induction
import Mathlib.Logic.Basic

/-!
# Runs of a labelled partial step function

A system is given by a function `step : σ → ε → Option σ`: in state `s` the
event `e` either is not enabled (`none`) or leads to exactly one state.  A run
is the iteration of `step` over a list of events.  The rules below prove an
invariant of all runs from what one step preserves, where the step may be
assumed to meet a condition on the event and the state before it.
-/

namespace AzsServer
namespace Library

variable {σ ε : Type*}

/-- Iterate a partial step over a list of events. -/
def runSteps (step : σ → ε → Option σ) : σ → List ε → Option σ
  | s, [] => some s
  | s, e :: events => (step s e).bind fun next => runSteps step next events

/-- Every step of the run meets a condition on the state before the step and
the event. -/
def StepsMeet (step : σ → ε → Option σ) (cond : σ → ε → Prop) : σ → List ε → Prop
  | _, [] => True
  | s, e :: events =>
      cond s e ∧ ∀ next, step s e = some next → StepsMeet step cond next events

variable {step : σ → ε → Option σ} {cond : σ → ε → Prop}

/-- A decidable condition is decided along a run. -/
instance decidableStepsMeet [∀ s e, Decidable (cond s e)] :
    ∀ (s : σ) (events : List ε), Decidable (StepsMeet step cond s events)
  | _, [] => isTrue trivial
  | s, e :: events =>
      match hNext : step s e with
      | none => decidable_of_iff (cond s e) (by simp [StepsMeet, hNext])
      | some next =>
          have := decidableStepsMeet next events
          decidable_of_iff (cond s e ∧ StepsMeet step cond next events)
            (by simp [StepsMeet, hNext])

@[simp] theorem runSteps_nil (s : σ) : runSteps step s [] = some s := rfl

theorem runSteps_cons_eq_some_iff {s final : σ} {e : ε} {events : List ε} :
    runSteps step s (e :: events) = some final ↔
      ∃ next, step s e = some next ∧ runSteps step next events = some final := by
  simp [runSteps, Option.bind_eq_some_iff]

/-- A run over a concatenation is a run over the first part followed by a run
over the second part. -/
theorem runSteps_append_eq_some_iff {s final : σ} {first second : List ε} :
    runSteps step s (first ++ second) = some final ↔
      ∃ middle, runSteps step s first = some middle ∧
        runSteps step middle second = some final := by
  induction first generalizing s with
  | nil => simp
  | cons e events ih =>
      simp only [List.cons_append, runSteps_cons_eq_some_iff, ih]
      constructor
      · rintro ⟨next, hStep, middle, hFirst, hSecond⟩
        exact ⟨middle, ⟨next, hStep, hFirst⟩, hSecond⟩
      · rintro ⟨middle, ⟨next, hStep, hFirst⟩, hSecond⟩
        exact ⟨next, hStep, middle, hFirst, hSecond⟩

/-- The invariant rule: what every step that meets the condition preserves holds
at the end of every run whose steps all meet it. -/
theorem runSteps_invariant {inv : σ → Prop}
    (hStep : ∀ s e next, inv s → cond s e → step s e = some next → inv next)
    {s final : σ} {events : List ε} (hInit : inv s)
    (hMeet : StepsMeet step cond s events)
    (hRun : runSteps step s events = some final) : inv final := by
  induction events generalizing s with
  | nil =>
      obtain rfl : s = final := by simpa using hRun
      exact hInit
  | cons e events ih =>
      obtain ⟨next, hNext, hRest⟩ := runSteps_cons_eq_some_iff.mp hRun
      exact ih (hStep s e next hInit hMeet.1 hNext) (hMeet.2 next hNext) hRest

/-- The steps of a run over a concatenation meet a condition exactly when the
steps of both parts do. -/
theorem stepsMeet_append_iff {s : σ} {first second : List ε} :
    StepsMeet step cond s (first ++ second) ↔
      StepsMeet step cond s first ∧
        ∀ middle, runSteps step s first = some middle →
          StepsMeet step cond middle second := by
  induction first generalizing s with
  | nil => simp [StepsMeet]
  | cons e events ih =>
      simp only [List.cons_append, StepsMeet, ih, runSteps_cons_eq_some_iff]
      constructor
      · rintro ⟨hCond, hRest⟩
        refine ⟨⟨hCond, fun next hNext => (hRest next hNext).1⟩, ?_⟩
        rintro middle ⟨next, hNext, hRun⟩
        exact (hRest next hNext).2 middle hRun
      · rintro ⟨⟨hCond, hFirst⟩, hSecond⟩
        exact ⟨hCond, fun next hNext =>
          ⟨hFirst next hNext, fun middle hRun => hSecond middle ⟨next, hNext, hRun⟩⟩⟩

/-- A condition on the events alone. -/
theorem stepsMeet_of_mem {allowed : ε → Prop} {events : List ε}
    (hAllowed : ∀ e ∈ events, allowed e) (s : σ) :
    StepsMeet step (fun _ e => allowed e) s events := by
  induction events generalizing s with
  | nil => trivial
  | cons e events ih =>
      refine ⟨hAllowed e List.mem_cons_self, fun next _ => ih ?_ next⟩
      exact fun d hMem => hAllowed d (List.mem_cons_of_mem _ hMem)

/-- A weaker condition. -/
theorem stepsMeet_mono {other : σ → ε → Prop} (hMore : ∀ s e, cond s e → other s e) {s : σ}
    {events : List ε} (hMeet : StepsMeet step cond s events) :
    StepsMeet step other s events := by
  induction events generalizing s with
  | nil => trivial
  | cons e events ih => exact ⟨hMore s e hMeet.1, fun next hNext => ih (hMeet.2 next hNext)⟩

/-- Two conditions that a run meets, it meets together. -/
theorem stepsMeet_and {other : σ → ε → Prop} {s : σ} {events : List ε}
    (hMeet : StepsMeet step cond s events) (hOther : StepsMeet step other s events) :
    StepsMeet step (fun s e => cond s e ∧ other s e) s events := by
  induction events generalizing s with
  | nil => trivial
  | cons e events ih =>
      refine ⟨⟨hMeet.1, hOther.1⟩, fun next hNext => ?_⟩
      exact ih (hMeet.2 next hNext) (hOther.2 next hNext)

/-- The invariant rule for a property of every step. -/
theorem stepsMeet_of_invariant {inv : σ → Prop} {good : σ → ε → Prop}
    (hStep : ∀ s e next, inv s → cond s e → step s e = some next → inv next)
    (hGood : ∀ s e, inv s → cond s e → good s e) {s : σ} (hInit : inv s) {events : List ε}
    (hMeet : StepsMeet step cond s events) : StepsMeet step good s events := by
  induction events generalizing s with
  | nil => trivial
  | cons e events ih =>
      refine ⟨hGood s e hInit hMeet.1, fun next hNext => ?_⟩
      exact ih (hStep s e next hInit hMeet.1 hNext) (hMeet.2 next hNext)

/-- Under an invariant of the whole run, two conditions that agree on its states and
events are met by the same runs. -/
theorem stepsMeet_congr_of_mem {inv : σ → Prop} {allowed : ε → Prop} {other : σ → ε → Prop}
    (hStep : ∀ s e next, inv s → allowed e → step s e = some next → inv next)
    (hSame : ∀ s e, inv s → allowed e → (cond s e ↔ other s e)) {s : σ} (hInit : inv s)
    {events : List ε} (hAllowed : ∀ e ∈ events, allowed e) :
    StepsMeet step cond s events ↔ StepsMeet step other s events := by
  induction events generalizing s with
  | nil => exact Iff.rfl
  | cons e events ih =>
      have hHead := hAllowed e List.mem_cons_self
      refine and_congr (hSame s e hInit hHead) (forall_congr' fun next => ?_)
      refine forall_congr' fun hNext => ih (hStep s e next hInit hHead hNext) ?_
      exact fun d hMem => hAllowed d (List.mem_cons_of_mem _ hMem)

theorem stepsMeet_congr {inv : σ → Prop} {other : σ → ε → Prop}
    (hStep : ∀ s e next, inv s → step s e = some next → inv next)
    (hSame : ∀ s e, inv s → (cond s e ↔ other s e)) {s : σ} (hInit : inv s)
    (events : List ε) : StepsMeet step cond s events ↔ StepsMeet step other s events :=
  stepsMeet_congr_of_mem (fun s e next hInv _ hNext => hStep s e next hInv hNext)
    (fun s e hInv _ => hSame s e hInv) hInit fun _ _ => trivial

/-- What an observer sees of a run: an output for each event, up to one that is not
enabled. -/
def outputs {ο : Type*} (step : σ → ε → Option σ) (out : σ → ε → ο) : σ → List ε → List ο
  | _, [] => []
  | s, e :: events =>
      out s e :: ((step s e).map fun next => outputs step out next events).getD []

section Views

variable {ο : Type*} {out : σ → ε → ο} {view : σ → σ}

/-- Steps that commute with a map of the states meet a condition on both sides, if the map
hides nothing that the condition is about. -/
theorem stepsMeet_view_iff (hCond : ∀ s e, cond (view s) e ↔ cond s e)
    (hStep : ∀ s e, cond s e → step (view s) e = (step s e).map view) (s : σ) (events : List ε) :
    StepsMeet step cond (view s) events ↔ StepsMeet step cond s events := by
  induction events generalizing s with
  | nil => exact Iff.rfl
  | cons e events ih =>
      show cond (view s) e ∧ _ ↔ cond s e ∧ _
      rw [hCond]
      refine and_congr_right fun hMeets => ?_
      rw [hStep s e hMeets]
      constructor
      · intro hRest next hNext
        exact (ih next).mp (hRest (view next) (by rw [hNext]; rfl))
      · intro hRest next hNext
        obtain ⟨middle, hMiddle, rfl⟩ := Option.map_eq_some_iff.mp hNext
        exact (ih middle).mpr (hRest middle hMiddle)

theorem outputs_view_eq (hOut : ∀ s e, cond s e → out (view s) e = out s e)
    (hStep : ∀ s e, cond s e → step (view s) e = (step s e).map view) {s : σ} {events : List ε}
    (hMeet : StepsMeet step cond s events) :
    outputs step out (view s) events = outputs step out s events := by
  induction events generalizing s with
  | nil => rfl
  | cons e events ih =>
      unfold outputs
      rw [hOut s e hMeet.1, hStep s e hMeet.1]
      cases hNext : step s e with
      | none => rfl
      | some next => exact congrArg (out s e :: ·) (ih (hMeet.2 next hNext))

/-- Two runs from states with the same image have the same outputs. -/
theorem outputs_eq_of_view_eq (hCond : ∀ s e, cond (view s) e ↔ cond s e)
    (hOut : ∀ s e, cond s e → out (view s) e = out s e)
    (hStep : ∀ s e, cond s e → step (view s) e = (step s e).map view) {s t : σ}
    (hView : view t = view s) {events : List ε} (hMeet : StepsMeet step cond s events) :
    outputs step out t events = outputs step out s events := by
  have hOther : StepsMeet step cond t events := by
    rw [← stepsMeet_view_iff hCond hStep, hView]
    exact (stepsMeet_view_iff hCond hStep s events).mpr hMeet
  rw [← outputs_view_eq hOut hStep hOther, hView]
  exact outputs_view_eq hOut hStep hMeet

end Views

/-- A relation between any earlier and any later state of a run. -/
def Along (step : σ → ε → Option σ) (rel : σ → σ → Prop) (start : σ) (events : List ε) : Prop :=
  ∀ done later rest s t, events = done ++ later ++ rest → runSteps step start done = some s →
    runSteps step s later = some t → rel s t

/-- A transitive relation holds along a run exactly when every step keeps it. -/
theorem along_iff_stepsMeet {rel : σ → σ → Prop} (hRefl : ∀ s, rel s s)
    (hTrans : ∀ s t u, rel s t → rel t u → rel s u) (start : σ) (events : List ε) :
    Along step rel start events ↔
      StepsMeet step (fun s e => ∀ next, step s e = some next → rel s next) start events := by
  constructor
  · -- by induction on the events: one step is a run of its own
    intro hAlong
    induction events generalizing start with
    | nil => trivial
    | cons e events ih =>
        refine ⟨fun next hNext => ?_, fun next hNext => ih next ?_⟩
        · exact hAlong [] [e] events start next rfl rfl
            (runSteps_cons_eq_some_iff.mpr ⟨next, hNext, rfl⟩)
        · intro done later rest s t hEvents hDone hLater
          refine hAlong (e :: done) later rest s t ?_ ?_ hLater
          · rw [hEvents]
            rfl
          · exact runSteps_cons_eq_some_iff.mpr ⟨next, hNext, hDone⟩
  · rintro hMeet done later rest s t rfl hDone hLater
    have hRest := (stepsMeet_append_iff.mp hMeet).1
    have hSteps := (stepsMeet_append_iff.mp hRest).2 s hDone
    have hStep : ∀ v e next, rel s v → (∀ next, step v e = some next → rel v next) →
        step v e = some next → rel s next := fun v e next hInv hCond hNext =>
      hTrans s v next hInv (hCond next hNext)
    exact runSteps_invariant hStep (hRefl s) hSteps hLater

/-- What every step from a state with an invariant meets, the whole run meets. -/
theorem stepsMeet_of_step {inv : σ → Prop} {good : σ → ε → Prop}
    (hStep : ∀ s e next, inv s → step s e = some next → inv next)
    (hGood : ∀ s e, inv s → good s e) {s : σ} (hInit : inv s) (events : List ε) :
    StepsMeet step good s events := by
  have hAny : StepsMeet step (fun _ _ => True) s events := stepsMeet_of_mem (fun _ _ => trivial) s
  exact stepsMeet_of_invariant (fun s e next hInv _ hNext => hStep s e next hInv hNext)
    (fun s e hInv _ => hGood s e hInv) hInit hAny

/-- A transitive relation that every step from a state with an invariant keeps. -/
theorem along_of_step {inv : σ → Prop} {rel : σ → σ → Prop} (hRefl : ∀ s, rel s s)
    (hTrans : ∀ s t u, rel s t → rel t u → rel s u)
    (hStep : ∀ s e next, inv s → step s e = some next → inv next ∧ rel s next) {start : σ}
    (hInit : inv start) (events : List ε) : Along step rel start events := by
  rw [along_iff_stepsMeet hRefl hTrans]
  exact stepsMeet_of_step (fun s e next hInv hNext => (hStep s e next hInv hNext).1)
    (fun s e hInv next hNext => (hStep s e next hInv hNext).2) hInit events

/-- A property of every prefix of a run and the state it leads to. -/
def EveryPrefix (step : σ → ε → Option σ) (good : List ε → σ → Prop) (start : σ)
    (events : List ε) : Prop :=
  ∀ done rest s, events = done ++ rest → runSteps step start done = some s → good done s

theorem everyPrefix_append_singleton_iff {good : List ε → σ → Prop} {start final : σ}
    {events : List ε} {e : ε} (hRun : runSteps step start (events ++ [e]) = some final) :
    EveryPrefix step good start (events ++ [e]) ↔
      EveryPrefix step good start events ∧ good (events ++ [e]) final := by
  constructor
  · intro hEvery
    refine ⟨fun done rest s hEvents => ?_, hEvery _ [] _ (List.append_nil _).symm hRun⟩
    exact hEvery done (rest ++ [e]) s (by rw [hEvents, List.append_assoc])
  · rintro ⟨hEvery, hFinal⟩ done rest s hEvents hDone
    rcases List.eq_nil_or_concat' rest with rfl | ⟨init, last, rfl⟩
    · obtain rfl : events ++ [e] = done := by simpa using hEvents
      obtain rfl : final = s := by simpa [hRun] using hDone
      exact hFinal
    · rw [← List.append_assoc] at hEvents
      exact hEvery done init s (List.append_inj_left' hEvents rfl) hDone

/-- The exactness rule: when one step keeps a property of the run so far exactly
when the step meets a condition, the property holds of every prefix of a run
exactly when every step of the run meets the condition. -/
theorem everyPrefix_iff_stepsMeet (inv : σ → Prop) (allowed : ε → Prop)
    {good : List ε → σ → Prop} {start final : σ} {events : List ε}
    (hInit : inv start) (hGood : good [] start)
    (hStep : ∀ done s e next, inv s → good done s → allowed e → step s e = some next →
      (good (done ++ [e]) next ↔ cond s e) ∧ (good (done ++ [e]) next → inv next))
    (hAllowed : ∀ e ∈ events, allowed e) (hRun : runSteps step start events = some final) :
    EveryPrefix step good start events ↔ StepsMeet step cond start events := by
  have hBoth : (EveryPrefix step good start events ↔ StepsMeet step cond start events) ∧
      (EveryPrefix step good start events → inv final) := by
    induction events using List.reverseRecOn generalizing final with
    | nil =>
        obtain rfl : start = final := by simpa using hRun
        refine ⟨⟨fun _ => trivial, fun _ done rest s hEvents hDone => ?_⟩, fun _ => hInit⟩
        obtain ⟨rfl, -⟩ := List.append_eq_nil_iff.mp hEvents.symm
        obtain rfl : start = s := by simpa using hDone
        exact hGood
    | append_singleton events e ih =>
        obtain ⟨middle, hEvents, hLast⟩ := runSteps_append_eq_some_iff.mp hRun
        have hNext : step middle e = some final := by
          simpa [runSteps_cons_eq_some_iff] using hLast
        obtain ⟨hPrefix, hMiddle⟩ :=
          ih (fun d hMem => hAllowed d (List.mem_append_left _ hMem)) hEvents
        have hAllowedLast : allowed e := hAllowed e (by simp)
        have hMeetLast : StepsMeet step cond start (events ++ [e]) ↔
            StepsMeet step cond start events ∧ cond middle e := by
          rw [stepsMeet_append_iff]
          refine and_congr_right fun _ => ?_
          simp [hEvents, StepsMeet]
        rw [everyPrefix_append_singleton_iff hRun, hMeetLast, hPrefix]
        have hGoodMiddle : StepsMeet step cond start events → good events middle :=
          fun hMeet => hPrefix.mpr hMeet events [] middle (List.append_nil _).symm hEvents
        have hExact : StepsMeet step cond start events →
            (good (events ++ [e]) final ↔ cond middle e) ∧
              (good (events ++ [e]) final → inv final) := fun hMeet =>
          hStep events middle e final (hMiddle (hPrefix.mpr hMeet)) (hGoodMiddle hMeet)
            hAllowedLast hNext
        exact ⟨and_congr_right fun hMeet => (hExact hMeet).1,
          fun hEvery => (hExact hEvery.1).2 hEvery.2⟩
  exact hBoth.1

/-- A loop whose turns commute with a map of the states does as a whole. -/
theorem foldlM_map_eq {α τ : Type*} {turn : σ → α → Option σ} {other : τ → α → Option τ}
    (view : σ → τ) (hTurn : ∀ s a, other (view s) a = (turn s a).map view) (as : List α) (s : σ) :
    as.foldlM other (view s) = (as.foldlM turn s).map view := by
  induction as generalizing s with
  | nil => rfl
  | cons a as ih =>
      rw [List.foldlM_cons, List.foldlM_cons, hTurn]
      cases turn s a with
      | none => rfl
      | some next => exact ih next

/-- A loop whose turns leave the state as it is. -/
theorem foldlM_eq_self {α : Type*} {turn : σ → α → Option σ} {s : σ} {as : List α}
    (hSame : ∀ a ∈ as, turn s a = some s) : as.foldlM turn s = some s := by
  induction as with
  | nil => rfl
  | cons a as ih =>
      rw [List.foldlM_cons, hSame a List.mem_cons_self]
      exact ih fun other hMem => hSame other (List.mem_cons_of_mem _ hMem)

/-- A loop that reads every element reads the list. -/
theorem mapM_ne_none {α β : Type} {read : α → Option β} {as : List α}
    (hRead : ∀ a ∈ as, read a ≠ none) : as.mapM read ≠ none := by
  induction as with
  | nil => exact Option.some_ne_none []
  | cons a as ih =>
      obtain ⟨b, hHead⟩ := Option.ne_none_iff_exists'.mp (hRead a List.mem_cons_self)
      obtain ⟨bs, hRest⟩ := Option.ne_none_iff_exists'.mp
        (ih fun other hMem => hRead other (List.mem_cons_of_mem _ hMem))
      rw [List.mapM_cons, hHead, hRest]
      exact Option.some_ne_none _

/-- It reads one value for each element, in their order. -/
theorem mapM_eq_some_iff {α β : Type} {read : α → Option β} {as : List α} {bs : List β} :
    as.mapM read = some bs ↔ List.Forall₂ (fun a b => read a = some b) as bs := by
  induction as generalizing bs with
  | nil =>
      constructor
      · intro hRun
        obtain rfl := Option.some.inj hRun
        exact .nil
      · rintro ⟨⟩
        rfl
  | cons a as ih =>
      rw [List.mapM_cons]
      constructor
      · intro hRun
        obtain ⟨b, hHead, hRun⟩ := Option.bind_eq_some_iff.mp hRun
        obtain ⟨rest, hRest, hRun⟩ := Option.bind_eq_some_iff.mp hRun
        obtain rfl := Option.some.inj hRun
        exact .cons hHead (ih.mp hRest)
      · rintro (_ | ⟨hHead, hRest⟩)
        rw [hHead, ih.mpr hRest]
        rfl

/-- What it has read comes from the elements. -/
theorem forall_mem_mapM_iff {α β : Type} {read : α → Option β} {as : List α} {bs : List β}
    {good : β → Prop} {cond : α → Prop} (hRun : as.mapM read = some bs)
    (hEach : ∀ a ∈ as, ∀ b, read a = some b → (good b ↔ cond a)) :
    (∀ b ∈ bs, good b) ↔ ∀ a ∈ as, cond a := by
  induction as generalizing bs with
  | nil =>
      obtain rfl := Option.some.inj hRun
      exact iff_of_true (fun _ hMem => by cases hMem) fun _ hMem => by cases hMem
  | cons a as ih =>
      rw [List.mapM_cons] at hRun
      obtain ⟨b, hHead, hRun⟩ := Option.bind_eq_some_iff.mp hRun
      obtain ⟨rest, hRest, hRun⟩ := Option.bind_eq_some_iff.mp hRun
      obtain rfl := Option.some.inj hRun
      rw [List.forall_mem_cons, List.forall_mem_cons, hEach a List.mem_cons_self b hHead,
        ih hRest fun other hMem => hEach other (List.mem_cons_of_mem _ hMem)]

theorem foldl_eq_self {α : Type*} {turn : σ → α → σ} {s : σ} {as : List α}
    (hSame : ∀ a ∈ as, turn s a = s) : as.foldl turn s = s := by
  induction as with
  | nil => rfl
  | cons a as ih =>
      rw [List.foldl_cons, hSame a List.mem_cons_self]
      exact ih fun other hMem => hSame other (List.mem_cons_of_mem _ hMem)

end Library
end AzsServer
