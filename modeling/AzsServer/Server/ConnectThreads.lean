import AzsServer.Library.Runs
import AzsServer.Server.Connect
import Mathlib.Logic.Relation

/-!
# The threads of `connect_async`

Calls of `connect_async` and the threads they start interleave step by step.  A
call tests `while_conn`, writes `last_input_info`, starts a thread, and writes
`while_conn = true`.  The thread takes the mutex, runs `connect` piece by piece, and
at its end writes `while_conn = false`.  `while_conn` is thus raised by a call
after its thread may already have lowered it.
-/

namespace AzsServer
namespace Server

open Core Library Local

/-- Where a call of `connect_async` stands: before the test, before writing
`last_input_info`, before starting the thread, and before raising the flag for the
thread it has started. -/
inductive CallPc where
  | test
  | input
  | spawn
  | raise (worker : Nat)
deriving DecidableEq

/-- Where a thread stands in `connect`. -/
inductive WorkerPc where
  | lock
  | input
  | openCon
  | check
  | regenerate
  | save
  | station
  | failed
  | clear
  | unlock
deriving DecidableEq

/-- A call of `connect_async(info)` in progress. -/
structure AsyncCall where
  info : MysqlConnInfo
  pc : CallPc
deriving DecidableEq

/-- A live thread that runs `connect(info)`. -/
structure Worker where
  info : MysqlConnInfo
  pc : WorkerPc
deriving DecidableEq

/-- The server with its calls and threads.  `connmutex` is the thread that holds the
mutex. -/
structure Threads where
  world : World
  calls : Nat → Option AsyncCall
  workers : Nat → Option Worker
  nextWorker : Nat
  connmutex : Option Nat

/-- One step of a call or of a thread.  A step of a thread says what the environment
delivers for it. -/
inductive ThreadAction where
  | enter (call : Nat) (info : MysqlConnInfo)
  | call (call : Nat)
  | work (worker : Nat) (env : Env)

/-- The program of a thread at a step. -/
def WorkerPc.run (pl : Platform) (info : MysqlConnInfo) : WorkerPc → Prog Unit
  | .lock => pure ()
  | .input => modifyDb fun db => { db with lastInputInfo := info }
  | .openCon => openConnection info
  | .check => checkValid
  | .regenerate => regenerateSecret pl info
  | .save => saveInfo pl info
  | .station => getAzsId
  | .failed => disconnected
  | .clear => modifyDb fun db => { db with whileConn := false }
  | .unlock => pure ()

/-- The step behind one that has returned; the thread ends behind the last one. -/
def WorkerPc.next : WorkerPc → Option WorkerPc
  | .lock => some .input
  | .input => some .openCon
  | .openCon => some .check
  | .check => some .regenerate
  | .regenerate => some .save
  | .save => some .station
  | .station => some .clear
  | .failed => some .clear
  | .clear => some .unlock
  | .unlock => none

/-- What a step of a thread comes to, whether it returns or throws: it changes members of
`azs_db` other than `last_connect_info`, or does one of the last pieces of `connect`. -/
inductive WorkerPc.Ends (pl : Platform) (info : MysqlConnInfo) (w : World) :
    WorkerPc → World → Prop
  | member {pc : WorkerPc} {db : AzsDatabase}
      (hLast : db.lastConnectInfo = w.azsDb.lastConnectInfo)
      (hFlag : pc ≠ .clear → db.whileConn = w.azsDb.whileConn) :
      Ends pl info w pc { w with azsDb := db }
  | regenerate : Ends pl info w .regenerate (afterRegenerate pl info w)
  | save : Ends pl info w .save (afterSave pl info w)
  | station {con : Connection} : Ends pl info w .station (afterStation con w)

theorem endState_work (pl : Platform) (pc : WorkerPc) (info : MysqlConnInfo) (w : World) :
    pc.Ends pl info w (endState (pc.run pl info) w) := by
  have hSame : pc.Ends pl info w w := @WorkerPc.Ends.member pl info w pc w.azsDb rfl fun _ => rfl
  cases pc with
  | lock => exact hSame
  | input => exact .member rfl fun _ => rfl
  | openCon =>
      by_cases hOpen : w.env.connect = true ∧ w.env.setSchema = true
      · rw [WorkerPc.run, endState, openConnection_run_of_ok hOpen.1 hOpen.2]
        exact .member rfl fun _ => rfl
      · obtain ⟨con, hRun, -⟩ := openConnection_run_of_error info w hOpen
        rw [WorkerPc.run, endState, hRun]
        exact .member rfl fun _ => rfl
  | check =>
      cases hCon : w.azsDb.con with
      | none =>
          rw [WorkerPc.run, endState, checkValid, bind_of_error (connection_run_of_none hCon)]
          exact hSame
      | some con =>
          cases hValid : w.env.isValid with
          | none =>
              rw [WorkerPc.run, endState, checkValid_run_of_none hCon hValid]
              exact hSame
          | some valid =>
              rw [WorkerPc.run, endState, checkValid_run_of_some hCon hValid]
              exact .member rfl fun _ => rfl
  | regenerate =>
      rw [WorkerPc.run, endState, regenerateSecret_run]
      exact .regenerate
  | save => exact .save
  | station =>
      cases hCon : w.azsDb.con with
      | none =>
          rw [WorkerPc.run, endState, getAzsId_run_of_none hCon]
          exact hSame
      | some con =>
          rw [WorkerPc.run, endState, getAzsId_run hCon]
          exact .station
  | failed => exact .member rfl fun _ => rfl
  | clear => exact .member rfl fun hClear => absurd rfl hClear
  | unlock => exact hSame

namespace Threads

/-- The state with a call at another place, or without it. -/
def setCall (s : Threads) (i : Nat) (call : Option AsyncCall) : Threads :=
  { s with calls := Function.update s.calls i call }

/-- The state with a thread at another place, or without it. -/
def setWorker (s : Threads) (j : Nat) (worker : Option Worker) : Threads :=
  { s with workers := Function.update s.workers j worker }

/-- One step of a call. -/
def callStep (s : Threads) (i : Nat) (call : AsyncCall) : Threads :=
  match call.pc with
  | .test =>
      if s.world.azsDb.whileConn = false then s.setCall i (some ⟨call.info, .input⟩)
      else s.setCall i none
  | .input =>
      { s.setCall i (some ⟨call.info, .spawn⟩) with
        world := s.world.mapDb fun db => { db with lastInputInfo := call.info } }
  | .spawn =>
      { (s.setCall i (some ⟨call.info, .raise s.nextWorker⟩)).setWorker s.nextWorker
          (some ⟨call.info, .lock⟩) with
        nextWorker := s.nextWorker + 1 }
  | .raise _ =>
      { s.setCall i none with
        world := s.world.mapDb fun db => { db with whileConn := true } }

/-- One step of a thread; a thread waits in front of a mutex that is held.  An
`SQLException` leads to the handler of `connect`. -/
def workStep (pl : Platform) (s : Threads) (j : Nat) (worker : Worker) (env : Env) :
    Option Threads :=
  if worker.pc = .lock ∧ s.connmutex ≠ none then none
  else
    let mutex :=
      if worker.pc = .lock then some j else if worker.pc = .unlock then none else s.connmutex
    match worker.pc.run pl worker.info (s.world.under env) with
    | .ok _ world =>
        some { s.setWorker j (worker.pc.next.map (⟨worker.info, ·⟩)) with
          world := world, connmutex := mutex }
    | .error .sqlException world =>
        some { s.setWorker j (some ⟨worker.info, .failed⟩) with
          world := world, connmutex := mutex }
    | .error _ _ => none

/-- The step relation, as a partial function of the action. -/
def step (pl : Platform) (s : Threads) : ThreadAction → Option Threads
  | .enter i info =>
      match s.calls i with
      | some _ => none
      | none => some (s.setCall i (some ⟨info, .test⟩))
  | .call i => (s.calls i).map fun call => s.callStep i call
  | .work j env =>
      match s.workers j with
      | none => none
      | some worker => s.workStep pl j worker env

/-- No call is in progress and no thread is alive. -/
def Quiet (s : Threads) : Prop :=
  (∀ i, s.calls i = none) ∧ ∀ j, s.workers j = none

/-- A server without calls and threads, with the flag down. -/
def idle (w : World) : Threads where
  world := w.mapDb fun db => { db with whileConn := false }
  calls _ := none
  workers _ := none
  nextWorker := 0
  connmutex := none

/-- A thread is alive and has not lowered the flag yet. -/
def Pending (s : Threads) (j : Nat) : Prop :=
  ∃ worker, s.workers j = some worker ∧ worker.pc ≠ .unlock

/-- The invariant: a raised flag has a thread that will lower it, and so has a flag
that a call is about to raise. -/
structure FlagCovered (s : Threads) : Prop where
  raised : s.world.azsDb.whileConn = true → ∃ j, s.Pending j
  raising : ∀ i info j, s.calls i = some ⟨info, .raise j⟩ → s.Pending j

/-- The condition on a step: a thread lowers the flag only when no call is about to
raise it for this thread. -/
def ClearsAfterRaise (s : Threads) : ThreadAction → Prop
  | .work j _ =>
      ∀ info, s.workers j = some ⟨info, .clear⟩ →
        ∀ i callInfo, s.calls i ≠ some ⟨callInfo, .raise j⟩
  | _ => True

/-! ## The flag and the threads -/

section Invariant

variable {pl : Platform} {s next : Threads}

/-- A piece of `connect` other than the last one leaves the flag alone. -/
theorem whileConn_run (pl : Platform) {pc : WorkerPc} (hPc : pc ≠ .clear)
    (info : MysqlConnInfo) (w : World) :
    (endState (pc.run pl info) w).azsDb.whileConn = w.azsDb.whileConn := by
  have hEnds := endState_work pl pc info w
  generalize endState (pc.run pl info) w = next at hEnds ⊢
  cases hEnds with
  | member _ hFlag => exact hFlag hPc
  | regenerate => rw [azsDb_afterRegenerate]
  | save => rfl
  | station => rw [whileConn_afterStation]

theorem pending_setWorker_self {j : Nat} {worker : Worker} (hPc : worker.pc ≠ .unlock) :
    (s.setWorker j (some worker)).Pending j :=
  ⟨worker, by simp [setWorker], hPc⟩

theorem Pending.setWorker_of_ne {j k : Nat} {worker : Option Worker} (hPending : s.Pending k)
    (hNe : k ≠ j) : (s.setWorker j worker).Pending k := by
  obtain ⟨old, hOld, hPc⟩ := hPending
  exact ⟨old, by simpa [setWorker, Function.update_of_ne hNe] using hOld, hPc⟩

/-- A call that is not about to raise the flag can come to any other place. -/
theorem FlagCovered.setCall {i : Nat} {call : Option AsyncCall} (hCovered : s.FlagCovered)
    (hCall : ∀ info j, call ≠ some ⟨info, .raise j⟩) : (s.setCall i call).FlagCovered := by
  refine ⟨hCovered.raised, fun k info j hRaise => ?_⟩
  by_cases hSame : k = i
  · subst hSame
    exact absurd (by simpa [Threads.setCall] using hRaise) (hCall info j)
  · apply hCovered.raising k info j
    simpa [Threads.setCall, Function.update_of_ne hSame] using hRaise

theorem FlagCovered.callStep {i : Nat} {call : AsyncCall} (hCovered : s.FlagCovered)
    (hCall : s.calls i = some call) : (s.callStep i call).FlagCovered := by
  obtain ⟨info, pc⟩ := call
  -- only the last two statements of a call change the threads and the flag
  cases pc with
  | test =>
      unfold Threads.callStep
      by_cases hFlag : s.world.azsDb.whileConn = false
      · rw [if_pos hFlag]
        exact hCovered.setCall fun j => by simp
      · rw [if_neg hFlag]
        exact hCovered.setCall fun j => by simp
  | input =>
      have hSet : (s.setCall i (some ⟨info, .spawn⟩)).FlagCovered :=
        hCovered.setCall fun callInfo j => by simp
      exact ⟨hSet.raised, hSet.raising⟩
  | spawn =>
      -- the new thread stands at the mutex when its call comes to raise the flag
      have hNew : (s.setWorker s.nextWorker (some ⟨info, .lock⟩)).Pending s.nextWorker :=
        pending_setWorker_self (by simp)
      have hOld : ∀ k, s.Pending k →
          (s.setWorker s.nextWorker (some ⟨info, .lock⟩)).Pending k := by
        intro k hPending
        by_cases hSame : k = s.nextWorker
        · exact hSame ▸ hNew
        · exact hPending.setWorker_of_ne hSame
      constructor
      · intro hFlag
        obtain ⟨k, hPending⟩ := hCovered.raised hFlag
        exact ⟨k, hOld k hPending⟩
      · intro k callInfo j hRaise
        by_cases hSame : k = i
        · subst hSame
          obtain ⟨-, rfl⟩ : info = callInfo ∧ s.nextWorker = j := by
            simpa [Threads.callStep, Threads.setCall, Threads.setWorker] using hRaise
          exact hNew
        · apply hOld j
          apply hCovered.raising k callInfo j
          simpa [Threads.callStep, Threads.setCall, Threads.setWorker,
            Function.update_of_ne hSame] using hRaise
  | raise j =>
      -- the thread of this call is still to lower the flag
      have hSet : (s.setCall i none).FlagCovered :=
        hCovered.setCall fun callInfo k => by simp
      exact ⟨fun _ => ⟨j, hCovered.raising i info j hCall⟩, hSet.raising⟩

/-- What a step of a thread does to the server, the calls and the threads. -/
theorem workStep_cases {j : Nat} {worker : Worker} {env : Env}
    (hStep : s.workStep pl j worker env = some next) :
    next.world = endState (worker.pc.run pl worker.info) (s.world.under env) ∧
      next.calls = s.calls ∧
      (next.workers = (s.setWorker j (worker.pc.next.map (⟨worker.info, ·⟩))).workers ∨
        next.workers = (s.setWorker j (some ⟨worker.info, .failed⟩)).workers) := by
  unfold Threads.workStep at hStep
  by_cases hWait : worker.pc = .lock ∧ s.connmutex ≠ none
  · rw [if_pos hWait] at hStep
    cases hStep
  rw [if_neg hWait] at hStep
  rw [endState]
  cases hRun : worker.pc.run pl worker.info (s.world.under env) with
  | ok a world =>
      simp only [hRun, Option.some.injEq] at hStep
      subst hStep
      exact ⟨rfl, rfl, Or.inl rfl⟩
  | error e world =>
      cases e with
      | sqlException =>
          simp only [hRun, Option.some.injEq] at hStep
          subst hStep
          exact ⟨rfl, rfl, Or.inr rfl⟩
      | _ => simp [hRun] at hStep

/-- A thread that has not lowered the flag keeps everything pending. -/
theorem Pending.workStep {j k : Nat} {worker : Worker} {env : Env} (hPending : s.Pending k)
    (hClear : worker.pc ≠ .clear) (hUnlock : worker.pc ≠ .unlock)
    (hStep : s.workStep pl j worker env = some next) : next.Pending k := by
  obtain ⟨-, -, hWorkers⟩ := workStep_cases hStep
  have hNext : ∃ pc, worker.pc.next = some pc ∧ pc ≠ .unlock := by
    cases hPc : worker.pc with
    | clear => exact absurd hPc hClear
    | unlock => exact absurd hPc hUnlock
    | _ => exact ⟨_, rfl, by decide⟩
  obtain ⟨pc, hPcNext, hPcNe⟩ := hNext
  have hAfter : ∀ after : Worker, after.pc ≠ .unlock →
      (s.setWorker j (some after)).Pending k := by
    intro after hAfterPc
    by_cases hSame : k = j
    · exact hSame ▸ pending_setWorker_self hAfterPc
    · exact hPending.setWorker_of_ne hSame
  unfold Threads.Pending
  rcases hWorkers with hWorkers | hWorkers
  · rw [hWorkers, hPcNext]
    exact hAfter ⟨worker.info, pc⟩ hPcNe
  · rw [hWorkers]
    exact hAfter ⟨worker.info, .failed⟩ (by simp)

/-- A step of a thread leaves every other thread pending. -/
theorem Pending.workStep_of_ne {j k : Nat} {worker : Worker} {env : Env}
    (hPending : s.Pending k) (hNe : k ≠ j)
    (hStep : s.workStep pl j worker env = some next) : next.Pending k := by
  obtain ⟨-, -, hWorkers⟩ := workStep_cases hStep
  unfold Threads.Pending
  rcases hWorkers with hWorkers | hWorkers
  · rw [hWorkers]
    exact hPending.setWorker_of_ne hNe
  · rw [hWorkers]
    exact hPending.setWorker_of_ne hNe

theorem FlagCovered.workStep {j : Nat} {worker : Worker} {env : Env}
    (hCovered : s.FlagCovered) (hWorker : s.workers j = some worker)
    (hClears : s.ClearsAfterRaise (.work j env))
    (hStep : s.workStep pl j worker env = some next) : next.FlagCovered := by
  obtain ⟨hWorld, hCalls, -⟩ := workStep_cases hStep
  by_cases hClear : worker.pc = .clear
  · -- the flag is lowered, and no call is about to raise it for this thread
    have hFlag : next.world.azsDb.whileConn = false := by
      rw [hWorld, hClear]
      rfl
    refine ⟨fun hRaised => ?_, fun i info k hRaise => ?_⟩
    · rw [hFlag] at hRaised
      cases hRaised
    · rw [hCalls] at hRaise
      have hNe : k ≠ j := by
        rintro rfl
        have hAtClear : s.workers k = some ⟨worker.info, .clear⟩ := by rw [hWorker, ← hClear]
        exact hClears worker.info hAtClear i info hRaise
      exact (hCovered.raising i info k hRaise).workStep_of_ne hNe hStep
  · have hFlag : next.world.azsDb.whileConn = s.world.azsDb.whileConn := by
      rw [hWorld]
      exact whileConn_run pl hClear worker.info _
    have hPending : ∀ k, s.Pending k → next.Pending k := by
      intro k hPending
      by_cases hUnlock : worker.pc = .unlock
      · -- a thread that ends was not pending
        have hNe : k ≠ j := by
          rintro rfl
          obtain ⟨other, hOther, hPc⟩ := hPending
          rw [hWorker, Option.some.injEq] at hOther
          exact hPc (hOther ▸ hUnlock)
        exact hPending.workStep_of_ne hNe hStep
      · exact hPending.workStep hClear hUnlock hStep
    refine ⟨fun hRaised => ?_, fun i info k hRaise => ?_⟩
    · rw [hFlag] at hRaised
      obtain ⟨k, hBefore⟩ := hCovered.raised hRaised
      exact ⟨k, hPending k hBefore⟩
    · rw [hCalls] at hRaise
      exact hPending k (hCovered.raising i info k hRaise)

/-- Every step under the condition keeps the invariant. -/
theorem FlagCovered.step {action : ThreadAction} (hCovered : s.FlagCovered)
    (hClears : s.ClearsAfterRaise action) (hStep : step pl s action = some next) :
    next.FlagCovered := by
  cases action with
  | enter i info =>
      cases hCall : s.calls i with
      | some call => simp [Threads.step, hCall] at hStep
      | none =>
          obtain rfl : s.setCall i (some ⟨info, .test⟩) = next := by
            simpa [Threads.step, hCall] using hStep
          exact hCovered.setCall fun callInfo j => by simp
  | call i =>
      cases hCall : s.calls i with
      | none => simp [Threads.step, hCall] at hStep
      | some call =>
          obtain rfl : s.callStep i call = next := by simpa [Threads.step, hCall] using hStep
          exact hCovered.callStep hCall
  | work j env =>
      cases hWorker : s.workers j with
      | none => simp [Threads.step, hWorker] at hStep
      | some worker =>
          have hWork : s.workStep pl j worker env = some next := by
            simpa [Threads.step, hWorker] using hStep
          exact hCovered.workStep hWorker hClears hWork

/-- In a run whose steps all meet the condition, the flag is down in every state in
which no call is in progress and no thread is alive. -/
theorem whileConn_false_of_quiet (pl : Platform) (w : World) (actions : List ThreadAction)
    (final : Threads) (hMeet : StepsMeet (step pl) ClearsAfterRaise (idle w) actions)
    (hRun : runSteps (step pl) (idle w) actions = some final) (hQuiet : final.Quiet) :
    final.world.azsDb.whileConn = false := by
  have hInit : (idle w).FlagCovered :=
    ⟨fun hRaised => (Bool.false_ne_true hRaised).elim, fun i info j hRaise => by cases hRaise⟩
  have hCovered : final.FlagCovered :=
    runSteps_invariant (fun s action next hInv hClears hStep => hInv.step hClears hStep)
      hInit hMeet hRun
  by_contra hFlag
  obtain ⟨j, worker, hAlive, -⟩ := hCovered.raised (by simpa using hFlag)
  rw [hQuiet.2 j] at hAlive
  cases hAlive

end Invariant

/-! ## A thread without interference -/

section Alone

variable {pl : Platform} {s : Threads} {j : Nat} {info : MysqlConnInfo}

/-- By steps of thread `j` alone, the server comes to the state `w` and the thread to
the place `pc`.  Each step takes up the environment that the one before has left. -/
def Reaches (pl : Platform) (s : Threads) (j : Nat) (info : MysqlConnInfo) (w : World)
    (pc : WorkerPc) : Prop :=
  ∃ final : Threads,
    Relation.ReflTransGen (fun t next => step pl t (.work j t.world.env) = some next) s final ∧
      final.world = w ∧ final.workers j = some ⟨info, pc⟩

theorem Reaches.start {pc : WorkerPc} (pl : Platform)
    (hWorker : s.workers j = some ⟨info, pc⟩) : s.Reaches pl j info s.world pc :=
  ⟨s, .refl, rfl, hWorker⟩

theorem Reaches.append {w after : World} {pc pcNext : WorkerPc}
    (hReaches : s.Reaches pl j info w pc)
    (hStep : ∀ t : Threads, t.world = w → t.workers j = some ⟨info, pc⟩ →
      ∃ next, step pl t (.work j w.env) = some next ∧
        next.world = after ∧ next.workers j = some ⟨info, pcNext⟩) :
    s.Reaches pl j info after pcNext := by
  obtain ⟨final, hSteps, rfl, hWorker⟩ := hReaches
  obtain ⟨next, hLast, hAfter, hNext⟩ := hStep final rfl hWorker
  exact ⟨next, hSteps.tail hLast, hAfter, hNext⟩

/-- What each step of a thread keeps is kept on its way. -/
theorem Reaches.inv {inv : World → Prop} {w : World} {pc : WorkerPc}
    (hWork : ∀ (pc : WorkerPc) info w, inv w → inv (endState (pc.run pl info) w))
    (hReaches : s.Reaches pl j info w pc) (hInit : inv s.world) : inv w := by
  obtain ⟨final, hSteps, rfl, -⟩ := hReaches
  induction hSteps with
  | refl => exact hInit
  | @tail t next _ hStep ih =>
      cases hWorker : t.workers j with
      | none => simp [Threads.step, hWorker] at hStep
      | some worker =>
          have hLast : t.workStep pl j worker t.world.env = some next := by
            simpa [Threads.step, hWorker] using hStep
          rw [(workStep_cases hLast).1]
          exact hWork worker.pc worker.info t.world ih

theorem Reaches.ok {w after : World} {pc pcNext : WorkerPc} (hReaches : s.Reaches pl j info w pc)
    (hLock : pc ≠ .lock) (hRun : pc.run pl info w = .ok ⟨⟩ after)
    (hNext : pc.next = some pcNext) : s.Reaches pl j info after pcNext := by
  refine hReaches.append fun t hWorld hWorker => ?_
  subst hWorld
  have hUnder : pc.run pl info (t.world.under t.world.env) = .ok ⟨⟩ after := hRun
  simp only [step, hWorker, workStep, hLock, false_and, if_false, hUnder]
  exact ⟨_, rfl, rfl, by simp [setWorker, hNext]⟩

theorem Reaches.error {w after : World} {pc : WorkerPc}
    (hReaches : s.Reaches pl j info w pc) (hLock : pc ≠ .lock)
    (hRun : pc.run pl info w = .error .sqlException after) : s.Reaches pl j info after .failed := by
  refine hReaches.append fun t hWorld hWorker => ?_
  subst hWorld
  have hUnder : pc.run pl info (t.world.under t.world.env) = .error .sqlException after :=
    hRun
  simp only [step, hWorker, workStep, hLock, false_and, if_false, hUnder]
  exact ⟨_, rfl, rfl, by simp [setWorker]⟩

/-- Behind an exception the thread lowers both flags, as `connect` does. -/
theorem Reaches.catch {w after : World} {pc : WorkerPc}
    (hReaches : s.Reaches pl j info w pc) (hLock : pc ≠ .lock)
    (hRun : pc.run pl info w = .error .sqlException after)
    (hTry : tryConnect pl info (s.world.mapDb fun db => { db with lastInputInfo := info }) =
      .error .sqlException after) :
    s.Reaches pl j info (endState (connect pl info) s.world) .unlock := by
  rw [endState, connect_run_of_error after hTry]
  have hFailed : s.Reaches pl j info (after.mapDb fun db => { db with isconn := false }) .clear :=
    (hReaches.error hLock hRun).ok (by decide) rfl rfl
  exact hFailed.ok (by decide) rfl rfl

/-- A thread that is not interrupted does what `connect` does. -/
theorem reaches_connect (pl : Platform) (hWorker : s.workers j = some ⟨info, .input⟩) :
    s.Reaches pl j info (endState (connect pl info) s.world) .unlock := by
  have hInput : s.Reaches pl j info
      (s.world.mapDb fun db => { db with lastInputInfo := info }) .openCon :=
    (Reaches.start pl hWorker).ok (by decide) rfl rfl
  -- the thread stops at the first exception; `isValid` is the only later one
  by_cases hOpen : s.world.env.connect = true ∧ s.world.env.setSchema = true
  · have hOpened : openConnection info
        (s.world.mapDb fun db => { db with lastInputInfo := info }) = .ok ⟨⟩ _ :=
      openConnection_run_of_ok hOpen.1 hOpen.2
    have hCheck := hInput.ok (by decide) hOpened rfl
    cases hValid : s.world.env.isValid with
    | none =>
        refine hCheck.catch (by decide) (checkValid_run_of_none rfl hValid) ?_
        unfold tryConnect
        rw [bind_of_ok hOpened]
        exact bind_of_error (checkValid_run_of_none rfl hValid)
    | some valid =>
        have hChecked : checkValid (s.world.mapDb fun db =>
            { db with lastInputInfo := info, con := some ⟨info, true⟩ }) = .ok ⟨⟩ _ :=
          checkValid_run_of_some rfl hValid
        have hRegenerate := hCheck.ok (by decide) hChecked rfl
        have hSave := hRegenerate.ok (by decide) (regenerateSecret_run pl info _) rfl
        have hStation := hSave.ok (by decide) (saveInfo_run pl info _) rfl
        have hClear := hStation.ok (by decide)
          (getAzsId_run (saved_con pl info valid s.world)) rfl
        rw [endState, connect_run_of_isValid pl info hOpen.1 hOpen.2 hValid]
        exact hClear.ok (by decide) rfl rfl
  · obtain ⟨con, hError, -⟩ := openConnection_run_of_error info
      (s.world.mapDb fun db => { db with lastInputInfo := info }) hOpen
    exact hInput.catch (by decide) hError (bind_of_error hError)

/-- What each step of a thread keeps is kept by `connect`. -/
theorem inv_connect {inv : World → Prop}
    (hWork : ∀ (pc : WorkerPc) info w, inv w → inv (endState (pc.run pl info) w))
    (info : MysqlConnInfo) {w : World} (hInit : inv w) : inv (endState (connect pl info) w) := by
  let start : Threads := { idle w with world := w, workers := fun _ => some ⟨info, .input⟩ }
  have hReaches : start.Reaches pl 0 info (endState (connect pl info) w) .unlock :=
    reaches_connect pl rfl
  exact hReaches.inv hWork hInit

end Alone

/-! ## Two attempts -/

/-- A step of thread 0 while the driver refuses the connection. -/
def refused : ThreadAction := .work 0 { now := .epoch, connect := false }

/-- The steps of call 0 up to the start of its thread. -/
def startAttempt : List ThreadAction := [.enter 0 {}, .call 0, .call 0, .call 0]

/-- The steps of a thread from the mutex to its end, when the driver refuses. -/
def refusedAttempt : List ThreadAction :=
  [refused, refused, refused, refused, refused, refused]

/-- When a step is enabled, the rest of the run starts in the state it leads to. -/
theorem stepsMeet_cons {pl : Platform} {s next : Threads} {action : ThreadAction}
    {actions : List ThreadAction} (hClears : s.ClearsAfterRaise action)
    (hStep : step pl s action = some next)
    (hRest : StepsMeet (step pl) ClearsAfterRaise next actions) :
    StepsMeet (step pl) ClearsAfterRaise s (action :: actions) := by
  refine ⟨hClears, fun other hOther => ?_⟩
  obtain rfl : next = other := by simpa [hStep] using hOther
  exact hRest

theorem clearsAfterRaise_of_no_calls {s : Threads} (hCalls : ∀ i, s.calls i = none)
    (action : ThreadAction) : s.ClearsAfterRaise action := by
  cases action with
  | work j env =>
      intro info hWorker i callInfo hRaise
      rw [hCalls i] at hRaise
      cases hRaise
  | _ => trivial

/-- The call raises the flag while its thread still waits for the mutex: the flag is
down at the end. -/
theorem whileConn_false_of_early_raise :
    ∃ final, runSteps (step .plain) (idle .fresh) (startAttempt ++ .call 0 :: refusedAttempt) =
        some final ∧
      final.Quiet ∧ final.world.azsDb.whileConn = false := by
  refine ⟨_, rfl, (and_iff_left_of_imp fun hQuiet => ?_).mpr ⟨fun i => ?_, fun j => ?_⟩⟩
  · refine whileConn_false_of_quiet .plain .fresh (startAttempt ++ .call 0 :: refusedAttempt) _
      ?_ rfl hQuiet
    -- no thread runs before the call has raised the flag
    iterate 5 refine stepsMeet_cons (by trivial) rfl ?_
    -- and no call is left when the thread starts
    iterate 6
      refine stepsMeet_cons (clearsAfterRaise_of_no_calls (fun i => ?_) _) rfl ?_
      · cases i with
        | zero => rfl
        | succ i => rfl
    trivial
  · cases i with
    | zero => rfl
    | succ i => rfl
  · cases j with
    | zero => rfl
    | succ j => rfl

/-- The thread ends before its call raises the flag: nothing is in progress any more
and the flag stays up. -/
theorem whileConn_true_of_late_raise :
    ∃ final, runSteps (step .plain) (idle .fresh) (startAttempt ++ refusedAttempt ++ [.call 0]) =
        some final ∧
      final.Quiet ∧ final.world.azsDb.whileConn = true := by
  refine ⟨_, rfl, ⟨fun i => ?_, fun j => ?_⟩, rfl⟩
  · cases i with
    | zero => rfl
    | succ i => rfl
  · cases j with
    | zero => rfl
    | succ j => rfl

end Threads

end Server
end AzsServer
