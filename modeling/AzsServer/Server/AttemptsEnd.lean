import AzsServer.Library.Pools
import AzsServer.Server.ConnectMutex

/-!
# Connect attempts come to an end

A thread that has the mutex can always do its next step, on the path of a failed attempt too,
and each step brings it closer to the one that gives the mutex back.  A call of `connect_async`
waits for nobody and starts one thread at most.  So the calls and threads of any moment can
only do so many steps, whatever the order of the steps and whatever the driver and SQLite
deliver, and they stop only when all of them are through.
-/

namespace AzsServer
namespace Server

open Core Library Local

/-- How many steps a thread has before it at most. -/
def WorkerPc.remaining : WorkerPc → Nat
  | .lock => 9
  | .input => 8
  | .openCon => 7
  | .check => 6
  | .regenerate => 5
  | .save => 4
  | .station => 3
  | .failed => 3
  | .clear => 2
  | .unlock => 1

/-- How many a call has before it, with those of the thread that it is going to start. -/
def CallPc.remaining : CallPc → Nat
  | .test => 13
  | .input => 12
  | .spawn => 11
  | .raise _ => 1

def Worker.remaining (worker : Worker) : Nat := worker.pc.remaining

def AsyncCall.remaining (call : AsyncCall) : Nat := call.pc.remaining

@[simp] theorem Worker.remaining_mk (info : MysqlConnInfo) (pc : WorkerPc) :
    (⟨info, pc⟩ : Worker).remaining = pc.remaining := rfl

namespace Threads

/-- What the calls and threads have before them, if the calls stand at the first places. -/
def remaining (places : Nat) (s : Threads) : Nat :=
  poolWeight AsyncCall.remaining places s.calls +
    poolWeight Worker.remaining s.nextWorker s.workers

/-- The steps of calls and threads that have begun. -/
def IsWork : ThreadAction → Prop
  | .enter _ _ => False
  | _ => True

/-- The same, when a thread is delivered this environment. -/
def WorksWith (env : Env) : ThreadAction → Prop
  | .enter _ _ => False
  | .call _ => True
  | .work _ other => other = env

/-- Only the first places of calls are taken. -/
def CallsWithin (places : Nat) (s : Threads) : Prop := ∀ i, places ≤ i → s.calls i = none

section Steps

variable {pl : Platform} {s next : Threads} {places : Nat}

theorem remaining_next {pc after : WorkerPc} (hNext : pc.next = some after) :
    after.remaining < pc.remaining := by
  cases pc with
  | unlock => cases hNext
  | _ =>
      cases hNext
      decide

/-- The steps that can throw come before the handler of `connect`. -/
theorem remaining_failed {pc : WorkerPc} {info : MysqlConnInfo} {w v : World}
    (hInside : pc.Inside info w) (hRun : pc.run pl info w = .error .sqlException v) :
    WorkerPc.failed.remaining < pc.remaining := by
  cases pc with
  | openCon => decide
  | check => decide
  | regenerate => decide
  | save => decide
  | station =>
      -- `get_azs_id` catches its own exceptions
      rw [WorkerPc.run, getAzsId_run hInside.1] at hRun
      cases hRun
  | _ => cases hRun

/-- A step of a thread takes from what is left. -/
theorem remaining_worked {j : Nat} {worker : Worker} {env : Env} (hExclusive : s.Exclusive)
    (hWorker : s.workers j = some worker) (hWorked : Worked pl s j worker env next) :
    next.remaining places < s.remaining places := by
  have hPlace : j < s.nextWorker := by
    by_contra hFresh
    rw [hExclusive.fresh j (by omega)] at hWorker
    cases hWorker
  obtain ⟨-, hInside⟩ := hExclusive.inside_of_worked hWorker hWorked.taken env
  -- the place of the thread weighs less than before
  have hLess : ∃ after, next.workers = Function.update s.workers j after ∧
      placeWeight Worker.remaining after < worker.remaining := by
    rcases hWorked.run with ⟨-, hWorkers⟩ | ⟨hRun, hWorkers⟩
    · refine ⟨_, hWorkers, ?_⟩
      cases hNext : worker.pc.next with
      | none =>
          show 0 < worker.pc.remaining
          cases worker.pc <;> decide
      | some after => exact remaining_next hNext
    · exact ⟨_, hWorkers, remaining_failed hInside hRun⟩
  obtain ⟨after, hWorkers, hLess⟩ := hLess
  have hUpdate := poolWeight_update Worker.remaining s.workers after hPlace
  rw [hWorker, placeWeight_some] at hUpdate
  unfold remaining
  rw [hWorked.calls, hWorked.nextWorker, hWorkers]
  omega

/-- A call goes on, ends, or starts a thread, and what it has left gets less by more than
the thread has before it. -/
theorem callStep_cases (s : Threads) (i : Nat) (call : AsyncCall) :
    ∃ after, (s.callStep i call).calls = Function.update s.calls i after ∧
      (((s.callStep i call).workers = s.workers ∧ (s.callStep i call).nextWorker = s.nextWorker ∧
          placeWeight AsyncCall.remaining after < call.remaining) ∨
        ((s.callStep i call).workers =
            Function.update s.workers s.nextWorker (some ⟨call.info, .lock⟩) ∧
          (s.callStep i call).nextWorker = s.nextWorker + 1 ∧
          placeWeight AsyncCall.remaining after + WorkerPc.lock.remaining < call.remaining)) := by
  obtain ⟨info, pc⟩ := call
  cases pc with
  | test =>
      unfold callStep
      split_ifs
      · exact ⟨some ⟨info, .input⟩, rfl, Or.inl ⟨rfl, rfl, (by decide : 12 < 13)⟩⟩
      · exact ⟨none, rfl, Or.inl ⟨rfl, rfl, (by decide : 0 < 13)⟩⟩
  | input => exact ⟨some ⟨info, .spawn⟩, rfl, Or.inl ⟨rfl, rfl, (by decide : 11 < 12)⟩⟩
  | spawn =>
      exact ⟨some ⟨info, .raise s.nextWorker⟩, rfl, Or.inr ⟨rfl, rfl, (by decide : 1 + 9 < 11)⟩⟩
  | raise k => exact ⟨none, rfl, Or.inl ⟨rfl, rfl, (by decide : 0 < 1)⟩⟩

/-- So does a step of a call, with the thread that it may start. -/
theorem remaining_callStep {i : Nat} {call : AsyncCall} (hCall : s.calls i = some call)
    (hPlace : i < places) : (s.callStep i call).remaining places < s.remaining places := by
  obtain ⟨after, hCalls, hWorkers⟩ := callStep_cases s i call
  have hUpdate := poolWeight_update AsyncCall.remaining s.calls after hPlace
  rw [hCall, placeWeight_some] at hUpdate
  unfold remaining
  rw [hCalls]
  rcases hWorkers with ⟨hSame, hNext, hLess⟩ | ⟨hNew, hNext, hLess⟩
  · rw [hSame, hNext]
    omega
  · rw [hNew, hNext, poolWeight_succ, placeWeight_some, Worker.remaining_mk]
    omega

/-- The calls of a run stand at finitely many places. -/
theorem callsWithin_step {action : ThreadAction} (hWithin : s.CallsWithin places)
    (hStep : step pl s action = some next) : ∃ more, next.CallsWithin more := by
  cases action with
  | enter i info =>
      rw [Threads.step] at hStep
      cases hCall : s.calls i with
      | some call =>
          rw [hCall] at hStep
          cases hStep
      | none =>
          rw [hCall] at hStep
          cases hStep
          refine ⟨max places (i + 1), fun k hFresh => ?_⟩
          show Function.update s.calls i _ k = none
          rw [Function.update_of_ne (by omega)]
          exact hWithin k (by omega)
  | call i =>
      obtain ⟨call, hCall, rfl⟩ := Option.map_eq_some_iff.mp hStep
      obtain ⟨after, hCalls, -⟩ := callStep_cases s i call
      refine ⟨max places (i + 1), fun k hFresh => ?_⟩
      rw [hCalls, Function.update_of_ne (by omega)]
      exact hWithin k (by omega)
  | work j env =>
      rw [Threads.step] at hStep
      cases hWorker : s.workers j with
      | none =>
          rw [hWorker] at hStep
          cases hStep
      | some worker =>
          rw [hWorker] at hStep
          refine ⟨places, fun i hFresh => ?_⟩
          rw [(worked_of_workStep hStep).calls]
          exact hWithin i hFresh

/-- Steps that begin nothing new take from what is left. -/
theorem remaining_step {action : ThreadAction} (hExclusive : s.Exclusive)
    (hWithin : s.CallsWithin places) (hWork : IsWork action)
    (hStep : step pl s action = some next) :
    next.CallsWithin places ∧ next.remaining places < s.remaining places := by
  cases action with
  | enter i info => exact hWork.elim
  | call i =>
      obtain ⟨call, hCall, rfl⟩ := Option.map_eq_some_iff.mp hStep
      have hPlace : i < places := by
        by_contra hFresh
        rw [hWithin i (by omega)] at hCall
        cases hCall
      refine ⟨fun k hFresh => ?_, remaining_callStep hCall hPlace⟩
      obtain ⟨after, hCalls, -⟩ := callStep_cases s i call
      rw [hCalls, Function.update_of_ne (by omega)]
      exact hWithin k hFresh
  | work j env =>
      rw [Threads.step] at hStep
      cases hWorker : s.workers j with
      | none =>
          rw [hWorker] at hStep
          cases hStep
      | some worker =>
          rw [hWorker] at hStep
          have hWorked := worked_of_workStep hStep
          refine ⟨fun i hFresh => ?_, remaining_worked hExclusive hWorker hWorked⟩
          rw [hWorked.calls]
          exact hWithin i hFresh

end Steps

/-! ## Progress -/

section Progress

variable {pl : Platform} {s : Threads}

/-- A thread that holds the mutex, or finds it free, can do its next step. -/
theorem workStep_ne_none {j : Nat} {worker : Worker} (pl : Platform) (hExclusive : s.Exclusive)
    (hWorker : s.workers j = some worker) (hTaken : worker.pc = .lock → s.connmutex = none)
    (env : Env) : s.workStep pl j worker env ≠ none := by
  obtain ⟨-, hInside⟩ := hExclusive.inside_of_worked hWorker hTaken env
  have hWait : ¬ (worker.pc = .lock ∧ s.connmutex ≠ none) := fun hBoth => hBoth.2 (hTaken hBoth.1)
  unfold workStep
  rw [if_neg hWait]
  rcases hInside.goesOn pl with ⟨next, hRun⟩ | ⟨next, hRun⟩
  · rw [hRun]
    exact Option.some_ne_none _
  · rw [hRun]
    exact Option.some_ne_none _

/-- While a call is in progress or a thread is alive, somebody can do a step. -/
theorem enabled_of_not_quiet (pl : Platform) (hExclusive : s.Exclusive) (hBusy : ¬ s.Quiet)
    (env : Env) : ∃ action, WorksWith env action ∧ step pl s action ≠ none := by
  have hWork : ∀ j worker, s.workers j = some worker →
      (worker.pc = .lock → s.connmutex = none) →
        ∃ action, WorksWith env action ∧ step pl s action ≠ none := by
    intro j worker hWorker hTaken
    refine ⟨.work j env, rfl, ?_⟩
    rw [Threads.step, hWorker]
    exact workStep_ne_none pl hExclusive hWorker hTaken env
  by_cases hCalls : ∀ i, s.calls i = none
  · have hWorkers : ∃ j, s.workers j ≠ none := by
      by_contra hNone
      exact hBusy ⟨hCalls, fun j => by_contra fun hAlive => hNone ⟨j, hAlive⟩⟩
    obtain ⟨j, hAlive⟩ := hWorkers
    obtain ⟨worker, hWorker⟩ := Option.ne_none_iff_exists'.mp hAlive
    cases hMutex : s.connmutex with
    | none => exact hWork j worker hWorker fun _ => hMutex
    | some k =>
        -- the one that holds the mutex does not wait
        obtain ⟨holder, hHolder, hPc⟩ := hExclusive.holder k hMutex
        exact hWork k holder hHolder fun hLock => absurd hLock hPc
  · obtain ⟨i, hCall⟩ := not_forall.mp hCalls
    obtain ⟨call, hCall⟩ := Option.ne_none_iff_exists'.mp hCall
    refine ⟨.call i, trivial, ?_⟩
    rw [Threads.step, hCall]
    exact Option.some_ne_none _

theorem connmutex_of_quiet (hExclusive : s.Exclusive) (hQuiet : s.Quiet) : s.connmutex = none := by
  cases hMutex : s.connmutex with
  | none => rfl
  | some j =>
      obtain ⟨worker, hWorker, -⟩ := hExclusive.holder j hMutex
      rw [hQuiet.2 j] at hWorker
      cases hWorker

theorem callsWithin_of_run {w : World} {actions : List ThreadAction}
    (hRun : runSteps (step pl) (idle w) actions = some s) : ∃ places, s.CallsWithin places := by
  have hInit : ∃ places, (idle w).CallsWithin places := ⟨0, fun _ _ => rfl⟩
  have hStep : ∀ (t : Threads) (action : ThreadAction) (next : Threads),
      (∃ places, t.CallsWithin places) → True → step pl t action = some next →
        ∃ places, next.CallsWithin places := by
    rintro t action next ⟨places, hWithin⟩ - hNext
    exact callsWithin_step hWithin hNext
  exact runSteps_invariant hStep hInit (stepsMeet_of_mem (fun _ _ => trivial) _) hRun

/-- From every state that calls and threads reach there is a bound on the steps they can still
do, whatever the order and whatever is delivered.  When they have done them, all calls and
threads are through and nobody holds the mutex, or the next step is possible with whatever is
delivered for it. -/
theorem attempts_come_to_an_end (pl : Platform) (w : World) (hRight : RightStation w)
    (actions : List ThreadAction) (s : Threads)
    (hRun : runSteps (step pl) (idle w) actions = some s) :
    ∃ bound, ∀ more final, (∀ action ∈ more, IsWork action) →
      runSteps (step pl) s more = some final →
        more.length ≤ bound ∧
          (final.Quiet ∧ final.connmutex = none ∨
            ∀ env, ∃ action, WorksWith env action ∧ step pl final action ≠ none) := by
  obtain ⟨places, hWithin⟩ := callsWithin_of_run hRun
  refine ⟨s.remaining places, fun more final hWork hMore => ?_⟩
  have hStep : ∀ t action next, (t.Exclusive ∧ t.CallsWithin places) → IsWork action →
      step pl t action = some next →
        (next.Exclusive ∧ next.CallsWithin places) ∧
          next.remaining places < t.remaining places := by
    rintro t action next ⟨hExclusive, hWithin⟩ hAllowed hNext
    obtain ⟨hNextWithin, hLess⟩ := remaining_step hExclusive hWithin hAllowed hNext
    exact ⟨⟨hExclusive.step hNext, hNextWithin⟩, hLess⟩
  obtain ⟨⟨hExclusive, -⟩, hLength⟩ :=
    length_le_of_decreases hStep ⟨exclusive_of_run hRight hRun, hWithin⟩ hWork hMore
  refine ⟨by omega, ?_⟩
  by_cases hQuiet : final.Quiet
  · exact Or.inl ⟨hQuiet, connmutex_of_quiet hExclusive hQuiet⟩
  · exact Or.inr fun env => enabled_of_not_quiet pl hExclusive hQuiet env

/-- Two threads that wait for the mutex at once come to an end. -/
theorem twoAttempts_come_to_an_end :
    ∃ s, runSteps (step .plain) (idle (.freshOver twoStations)) (twoAttempts.take 8) = some s ∧
      ∃ bound, ∀ more final, (∀ action ∈ more, IsWork action) →
        runSteps (step .plain) s more = some final →
          more.length ≤ bound ∧
            (final.Quiet ∧ final.connmutex = none ∨
              ∀ env, ∃ action, WorksWith env action ∧ step .plain final action ≠ none) := by
  have hRun : (runSteps (step .plain) (idle (.freshOver twoStations))
      (twoAttempts.take 8)).isSome := by
    decide +kernel
  obtain ⟨s, hFinal⟩ := Option.isSome_iff_exists.mp hRun
  have hRight : RightStation (.freshOver twoStations) := fun hTrue => by cases hTrue
  exact ⟨s, hFinal, attempts_come_to_an_end .plain _ hRight _ s hFinal⟩

end Progress

end Threads

end Server
end AzsServer
