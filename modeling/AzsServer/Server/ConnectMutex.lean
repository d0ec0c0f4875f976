import AzsServer.Server.ConnectThreads
import AzsServer.Server.PublishedState

/-!
# What the mutex of `connect` protects

`connect` replaces `con`, sets `isconn`, saves the data of the connection and reads `azs_id`,
and between these steps the four need not belong together.  All of them are written with the
mutex held; so under every interleaving of calls and threads, at most one thread is between
the steps, it works over its own connection, and whenever nobody holds the mutex the published
state is right.
-/

namespace AzsServer
namespace Server

open Core Library Local

/-- What holds while the thread that has the mutex stands at a step.  From `setSchema` to
the end of `get_azs_id` only its own connection is certain, and behind an exception nothing. -/
def WorkerPc.Inside (info : MysqlConnInfo) (w : World) : WorkerPc → Prop
  | .lock => RightStation w
  | .input => RightStation w
  | .openCon => RightStation w
  | .check => w.azsDb.con = some ⟨info, true⟩
  | .regenerate => w.azsDb.con = some ⟨info, true⟩
  | .save => w.azsDb.con = some ⟨info, true⟩
  | .station => w.azsDb.con = some ⟨info, true⟩ ∧ w.azsDb.lastConnectInfo = info
  | .failed => True
  | .clear => RightStation w
  | .unlock => RightStation w

/-! ## One step of a thread -/

section Steps

variable {pl : Platform} {info : MysqlConnInfo} {w next : World} {pc : WorkerPc}

theorem WorkerPc.Inside.con (hInside : pc.Inside info w) (hOpened : pc.opened) :
    w.azsDb.con = some ⟨info, true⟩ := by
  cases pc with
  | check => exact hInside
  | regenerate => exact hInside
  | save => exact hInside
  | station => exact hInside.1
  | _ => exact hOpened.elim

/-- A call of `connect_async` changes nothing that is published. -/
theorem WorkerPc.Inside.of_kept (hInside : pc.Inside info w) (hKept : StationKept w next) :
    pc.Inside info next := by
  have hRight : RightStation w → RightStation next := fun hRight => hRight.of_kept hKept
  cases pc with
  | lock => exact hRight hInside
  | input => exact hRight hInside
  | openCon => exact hRight hInside
  | check => exact hKept.con.trans hInside
  | regenerate => exact hKept.con.trans hInside
  | save => exact hKept.con.trans hInside
  | station => exact ⟨hKept.con.trans hInside.1, hKept.lastConnectInfo.trans hInside.2⟩
  | failed => trivial
  | clear => exact hRight hInside
  | unlock => exact hRight hInside

/-- A step that returns leads to what holds at the next one, and the last one gives the
mutex back over the right station. -/
theorem WorkerPc.Inside.run (hInside : pc.Inside info w)
    (hRun : pc.run pl info w = .ok ⟨⟩ next) :
    (∀ after ∈ pc.next, after.Inside info next) ∧ (pc.next = none → RightStation next) := by
  have hLeads : ∀ {after : WorkerPc}, pc.next = some after → after.Inside info next →
      (∀ after ∈ pc.next, after.Inside info next) ∧ (pc.next = none → RightStation next) := by
    intro after hNext hAfter
    rw [hNext]
    exact ⟨fun other hOther => by cases hOther; exact hAfter, fun hNone => by cases hNone⟩
  have hOwn : ∀ {after : WorkerPc}, pc.next = some after → after.opened →
      next.azsDb.con = some ⟨info, true⟩ := fun hNext hOpened =>
    con_of_work hInside.con hRun hNext hOpened
  cases pc with
  | lock =>
      cases hRun
      exact hLeads rfl hInside
  | input =>
      cases hRun
      have hKept : StationKept w (w.mapDb fun db => { db with lastInputInfo := info }) :=
        (StationKept.refl w).mapDb rfl rfl rfl rfl
      exact hLeads rfl (RightStation.of_kept hInside hKept)
  | openCon => exact hLeads rfl (hOwn rfl trivial)
  | check => exact hLeads rfl (hOwn rfl trivial)
  | regenerate => exact hLeads rfl (hOwn rfl trivial)
  | save =>
      cases hRun
      exact hLeads rfl ⟨hInside, rfl⟩
  | station =>
      rw [WorkerPc.run, getAzsId_run hInside.1] at hRun
      cases hRun
      exact hLeads rfl (rightStation_afterStation hInside.1 rfl fun _ => hInside.2)
  | failed =>
      cases hRun
      exact hLeads rfl fun hIsconn => by cases hIsconn
  | clear =>
      cases hRun
      have hKept : StationKept w (w.mapDb fun db => { db with whileConn := false }) :=
        (StationKept.refl w).mapDb rfl rfl rfl rfl
      exact hLeads rfl (RightStation.of_kept hInside hKept)
  | unlock =>
      cases hRun
      exact ⟨fun other hOther => (by cases hOther), fun _ => hInside⟩

/-- A thread that has its connection can only be stopped by an `SQLException`. -/
theorem WorkerPc.Inside.goesOn (pl : Platform) (hInside : pc.Inside info w) :
    (∃ next, pc.run pl info w = .ok ⟨⟩ next) ∨
      ∃ next, pc.run pl info w = .error .sqlException next := by
  cases pc with
  | openCon =>
      by_cases hOpen : w.env.connect = true ∧ w.env.setSchema = true
      · exact Or.inl ⟨_, openConnection_run_of_ok hOpen.1 hOpen.2⟩
      · obtain ⟨con, hRun, -⟩ := openConnection_run_of_error info w hOpen
        exact Or.inr ⟨_, hRun⟩
  | check =>
      cases hValid : w.env.isValid with
      | none => exact Or.inr ⟨_, checkValid_run_of_none hInside hValid⟩
      | some valid => exact Or.inl ⟨_, checkValid_run_of_some hInside hValid⟩
  | regenerate => exact Or.inl ⟨_, regenerateSecret_run pl info w⟩
  | station => exact Or.inl ⟨_, getAzsId_run hInside.1⟩
  | _ => exact Or.inl ⟨_, rfl⟩

end Steps

/-! ## Interleavings -/

namespace Threads

/-- The invariant of calls and threads: whoever has passed the mutex holds it, and the
published state is the right one while nobody does. -/
structure Exclusive (s : Threads) : Prop where
  fresh : ∀ j, s.nextWorker ≤ j → s.workers j = none
  holder : ∀ j, s.connmutex = some j → ∃ worker, s.workers j = some worker ∧ worker.pc ≠ .lock
  inside : ∀ j worker, s.workers j = some worker → worker.pc ≠ .lock →
    s.connmutex = some j ∧ worker.pc.Inside worker.info s.world
  free : s.connmutex = none → RightStation s.world

/-- What a step of a thread needs and what it leads to. -/
structure Worked (pl : Platform) (s : Threads) (j : Nat) (worker : Worker) (env : Env)
    (next : Threads) : Prop where
  taken : worker.pc = .lock → s.connmutex = none
  calls : next.calls = s.calls
  nextWorker : next.nextWorker = s.nextWorker
  connmutex : next.connmutex =
    if worker.pc = .lock then some j else if worker.pc = .unlock then none else s.connmutex
  run : (worker.pc.run pl worker.info (s.world.under env) = .ok ⟨⟩ next.world ∧
      next.workers = Function.update s.workers j (worker.pc.next.map (⟨worker.info, ·⟩))) ∨
    (worker.pc.run pl worker.info (s.world.under env) = .error .sqlException next.world ∧
      next.workers = Function.update s.workers j (some ⟨worker.info, .failed⟩))

section Exclusion

variable {pl : Platform} {s next : Threads} {j : Nat} {worker : Worker} {env : Env}

theorem worked_of_workStep (hStep : s.workStep pl j worker env = some next) :
    Worked pl s j worker env next := by
  unfold workStep at hStep
  by_cases hWait : worker.pc = .lock ∧ s.connmutex ≠ none
  · rw [if_pos hWait] at hStep
    cases hStep
  rw [if_neg hWait] at hStep
  have hTaken : worker.pc = .lock → s.connmutex = none := fun hLock => by
    by_contra hHeld
    exact hWait ⟨hLock, hHeld⟩
  cases hRun : worker.pc.run pl worker.info (s.world.under env) with
  | ok a w =>
      simp only [hRun, Option.some.injEq] at hStep
      subst hStep
      exact ⟨hTaken, rfl, rfl, rfl, Or.inl ⟨hRun, rfl⟩⟩
  | error thrown w =>
      cases thrown with
      | sqlException =>
          simp only [hRun, Option.some.injEq] at hStep
          subst hStep
          exact ⟨hTaken, rfl, rfl, rfl, Or.inr ⟨hRun, rfl⟩⟩
      | _ => simp [hRun] at hStep

theorem exclusive_idle {w : World} (hRight : RightStation w) : (idle w).Exclusive where
  fresh _ _ := rfl
  holder _ hHeld := by cases hHeld
  inside _ _ hWorker := by cases hWorker
  free _ := by
    have hKept : StationKept w (w.mapDb fun db => { db with whileConn := false }) :=
      (StationKept.refl w).mapDb rfl rfl rfl rfl
    exact hRight.of_kept hKept

/-- A step that leaves the threads and the mutex as they are, and what is published. -/
theorem Exclusive.of_kept (hExclusive : s.Exclusive) (hWorkers : next.workers = s.workers)
    (hNext : next.nextWorker = s.nextWorker) (hMutex : next.connmutex = s.connmutex)
    (hKept : StationKept s.world next.world) : next.Exclusive := by
  refine ⟨fun j => ?_, fun j => ?_, fun j worker => ?_, ?_⟩
  · rw [hWorkers, hNext]
    exact hExclusive.fresh j
  · rw [hWorkers, hMutex]
    exact hExclusive.holder j
  · rw [hWorkers, hMutex]
    intro hWorker hPc
    obtain ⟨hHeld, hInside⟩ := hExclusive.inside j worker hWorker hPc
    exact ⟨hHeld, hInside.of_kept hKept⟩
  · rw [hMutex]
    exact fun hFree => (hExclusive.free hFree).of_kept hKept

/-- A thread that has been started waits for the mutex. -/
theorem Exclusive.spawned (hExclusive : s.Exclusive) (info : MysqlConnInfo)
    (hWorkers : next.workers = Function.update s.workers s.nextWorker (some ⟨info, .lock⟩))
    (hNext : next.nextWorker = s.nextWorker + 1) (hMutex : next.connmutex = s.connmutex)
    (hWorld : next.world = s.world) : next.Exclusive := by
  have hOther : ∀ j worker, s.workers j = some worker → next.workers j = some worker := by
    intro j worker hWorker
    have hNe : j ≠ s.nextWorker := by
      rintro rfl
      rw [hExclusive.fresh _ le_rfl] at hWorker
      cases hWorker
    rw [hWorkers, Function.update_of_ne hNe, hWorker]
  refine ⟨fun j hFresh => ?_, fun j hHeld => ?_, fun j worker hWorker hPc => ?_, ?_⟩
  · rw [hNext] at hFresh
    rw [hWorkers, Function.update_of_ne (by omega)]
    exact hExclusive.fresh j (by omega)
  · rw [hMutex] at hHeld
    obtain ⟨worker, hWorker, hPc⟩ := hExclusive.holder j hHeld
    exact ⟨worker, hOther j worker hWorker, hPc⟩
  · by_cases hNew : j = s.nextWorker
    · subst hNew
      rw [hWorkers, Function.update_self] at hWorker
      cases hWorker
      exact absurd rfl hPc
    · rw [hWorkers, Function.update_of_ne hNew] at hWorker
      rw [hMutex, hWorld]
      exact hExclusive.inside j worker hWorker hPc
  · rw [hMutex, hWorld]
    exact hExclusive.free

theorem Exclusive.callStep {i : Nat} {call : AsyncCall} (hExclusive : s.Exclusive) :
    (s.callStep i call).Exclusive := by
  obtain ⟨info, pc⟩ := call
  cases pc with
  | test =>
      unfold Threads.callStep
      split_ifs
      · exact hExclusive.of_kept rfl rfl rfl (.refl _)
      · exact hExclusive.of_kept rfl rfl rfl (.refl _)
  | input =>
      have hKept : StationKept s.world (s.world.mapDb fun db => { db with lastInputInfo := info }) :=
        (StationKept.refl _).mapDb rfl rfl rfl rfl
      exact hExclusive.of_kept rfl rfl rfl hKept
  | spawn => exact hExclusive.spawned info rfl rfl rfl rfl
  | raise k =>
      have hKept : StationKept s.world (s.world.mapDb fun db => { db with whileConn := true }) :=
        (StationKept.refl _).mapDb rfl rfl rfl rfl
      exact hExclusive.of_kept rfl rfl rfl hKept

/-- Whoever does a step holds the mutex, or takes it. -/
theorem Exclusive.inside_of_worked (hExclusive : s.Exclusive) (hWorker : s.workers j = some worker)
    (hTaken : worker.pc = .lock → s.connmutex = none) (env : Env) :
    (worker.pc ≠ .lock → s.connmutex = some j) ∧
      worker.pc.Inside worker.info (s.world.under env) := by
  have hUnder : StationKept s.world (s.world.under env) := (StationKept.refl _).congr rfl rfl
  by_cases hLock : worker.pc = .lock
  · refine ⟨fun hPc => absurd hLock hPc, ?_⟩
    rw [hLock]
    exact RightStation.of_kept (hExclusive.free (hTaken hLock)) hUnder
  · obtain ⟨hHeld, hInside⟩ := hExclusive.inside j worker hWorker hLock
    exact ⟨fun _ => hHeld, hInside.of_kept hUnder⟩

/-- Nobody else has passed the mutex. -/
theorem Exclusive.alone (hExclusive : s.Exclusive)
    (hMine : s.connmutex = none ∨ s.connmutex = some j) {k : Nat} {other : Worker}
    (hOther : s.workers k = some other) (hPc : other.pc ≠ .lock) : k = j := by
  obtain ⟨hHeld, -⟩ := hExclusive.inside k other hOther hPc
  rcases hMine with hFree | hMine
  · rw [hFree] at hHeld
    cases hHeld
  · exact Option.some.inj (hHeld.symm.trans hMine)

/-- The thread goes on with the mutex. -/
theorem Exclusive.held (hExclusive : s.Exclusive) (hWorker : s.workers j = some worker)
    (hMine : s.connmutex = none ∨ s.connmutex = some j) (after : Worker) (hPc : after.pc ≠ .lock)
    (hInside : after.pc.Inside after.info next.world)
    (hWorkers : next.workers = Function.update s.workers j (some after))
    (hNext : next.nextWorker = s.nextWorker) (hMutex : next.connmutex = some j) :
    next.Exclusive := by
  have hSelf : next.workers j = some after := by rw [hWorkers, Function.update_self]
  refine ⟨fun k hFresh => ?_, fun k hHeld => ?_, fun k other hOther hOtherPc => ?_, fun hFree => ?_⟩
  · have hNe : k ≠ j := by
      rintro rfl
      rw [hExclusive.fresh k (hNext ▸ hFresh)] at hWorker
      cases hWorker
    rw [hWorkers, Function.update_of_ne hNe]
    exact hExclusive.fresh k (hNext ▸ hFresh)
  · obtain rfl : j = k := Option.some.inj (hMutex.symm.trans hHeld)
    exact ⟨after, hSelf, hPc⟩
  · by_cases hSame : k = j
    · subst hSame
      obtain rfl : after = other := Option.some.inj (hSelf.symm.trans hOther)
      exact ⟨hMutex, hInside⟩
    · rw [hWorkers, Function.update_of_ne hSame] at hOther
      exact absurd (hExclusive.alone hMine hOther hOtherPc) hSame
  · rw [hMutex] at hFree
    cases hFree

/-- The thread ends and gives the mutex back. -/
theorem Exclusive.released (hExclusive : s.Exclusive) (hMine : s.connmutex = some j)
    (hRight : RightStation next.world) (hWorkers : next.workers = Function.update s.workers j none)
    (hNext : next.nextWorker = s.nextWorker) (hMutex : next.connmutex = none) :
    next.Exclusive := by
  refine ⟨fun k hFresh => ?_, fun k hHeld => ?_, fun k other hOther hOtherPc => ?_, fun _ => hRight⟩
  · by_cases hSame : k = j
    · rw [hWorkers, hSame, Function.update_self]
    · rw [hWorkers, Function.update_of_ne hSame]
      exact hExclusive.fresh k (hNext ▸ hFresh)
  · rw [hMutex] at hHeld
    cases hHeld
  · by_cases hSame : k = j
    · rw [hWorkers, hSame, Function.update_self] at hOther
      cases hOther
    · rw [hWorkers, Function.update_of_ne hSame] at hOther
      exact absurd (hExclusive.alone (Or.inr hMine) hOther hOtherPc) hSame

theorem Exclusive.worked (hExclusive : s.Exclusive) (hWorker : s.workers j = some worker)
    (hWorked : Worked pl s j worker env next) : next.Exclusive := by
  obtain ⟨hTaken, -, hNext, hMutex, hRun⟩ := hWorked
  obtain ⟨hHeld, hInside⟩ := hExclusive.inside_of_worked hWorker hTaken env
  have hMine : s.connmutex = none ∨ s.connmutex = some j := by
    by_cases hLock : worker.pc = .lock
    · exact Or.inl (hTaken hLock)
    · exact Or.inr (hHeld hLock)
  have hKeeps : worker.pc ≠ .unlock → next.connmutex = some j := by
    intro hUnlock
    rw [hMutex, if_neg hUnlock]
    by_cases hLock : worker.pc = .lock
    · rw [if_pos hLock]
    · rw [if_neg hLock, hHeld hLock]
  rcases hRun with ⟨hRun, hWorkers⟩ | ⟨hRun, hWorkers⟩
  · obtain ⟨hAfter, hLast⟩ := hInside.run hRun
    cases hPcNext : worker.pc.next with
    | none =>
        rw [hPcNext, Option.map_none] at hWorkers
        have hUnlock : worker.pc = .unlock := by
          cases hPc : worker.pc with
          | unlock => rfl
          | _ =>
              rw [hPc] at hPcNext
              cases hPcNext
        have hPc : worker.pc ≠ .lock := by
          rw [hUnlock]
          decide
        rw [if_neg hPc, if_pos hUnlock] at hMutex
        exact hExclusive.released (hHeld hPc) (hLast hPcNext) hWorkers hNext hMutex
    | some after =>
        rw [hPcNext, Option.map_some] at hWorkers
        have hPcs : worker.pc ≠ .unlock ∧ after ≠ .lock := by
          cases hPc : worker.pc with
          | unlock =>
              rw [hPc] at hPcNext
              cases hPcNext
          | _ =>
              rw [hPc] at hPcNext
              cases hPcNext
              decide
        have hAfterInside : after.Inside worker.info next.world := hAfter after hPcNext
        exact hExclusive.held hWorker hMine ⟨worker.info, after⟩ hPcs.2 hAfterInside hWorkers hNext
          (hKeeps hPcs.1)
  · have hUnlock : worker.pc ≠ .unlock := by
      intro hUnlock
      rw [hUnlock] at hRun
      cases hRun
    have hPc : WorkerPc.failed ≠ .lock := by decide
    exact hExclusive.held hWorker hMine ⟨worker.info, .failed⟩ hPc trivial hWorkers hNext
      (hKeeps hUnlock)

/-- Every step of a call or of a thread keeps the invariant. -/
theorem Exclusive.step {action : ThreadAction} (hExclusive : s.Exclusive)
    (hStep : step pl s action = some next) : next.Exclusive := by
  cases action with
  | enter i info =>
      rw [Threads.step] at hStep
      cases hCall : s.calls i with
      | some call =>
          rw [hCall] at hStep
          cases hStep
      | none =>
          rw [hCall] at hStep
          cases hStep
          exact hExclusive.of_kept rfl rfl rfl (.refl _)
  | call i =>
      obtain ⟨call, -, rfl⟩ := Option.map_eq_some_iff.mp hStep
      exact hExclusive.callStep
  | work j env =>
      rw [Threads.step] at hStep
      cases hWorker : s.workers j with
      | none =>
          rw [hWorker] at hStep
          cases hStep
      | some worker =>
          rw [hWorker] at hStep
          exact hExclusive.worked hWorker (worked_of_workStep hStep)

theorem exclusive_of_run {w : World} (hRight : RightStation w) {actions : List ThreadAction}
    (hRun : runSteps (Threads.step pl) (idle w) actions = some s) : s.Exclusive :=
  runSteps_invariant (fun _ _ _ hInv _ hNext => hInv.step hNext) (exclusive_idle hRight)
    (stepsMeet_of_mem (fun _ _ => trivial) _) hRun

/-- Under every interleaving of calls and threads, at most one thread has passed the mutex,
a thread between `setSchema` and the end of `get_azs_id` works over its own connection, and
whenever nobody holds the mutex, `con`, `last_connect_info` and `azs_id` belong together if
`isconn` is true. -/
theorem published_between_attempts (pl : Platform) (w : World) (hRight : RightStation w)
    (actions : List ThreadAction) (s : Threads)
    (hRun : runSteps (Threads.step pl) (idle w) actions = some s) :
    (∀ j k worker other, s.workers j = some worker → s.workers k = some other →
        worker.pc ≠ .lock → other.pc ≠ .lock → j = k) ∧
      (∀ j worker, s.workers j = some worker → worker.pc.opened →
        s.world.azsDb.con = some ⟨worker.info, true⟩) ∧
      (s.connmutex = none → RightStation s.world) := by
  have hExclusive := exclusive_of_run hRight hRun
  refine ⟨fun j k worker other hWorker hOther hPc hOtherPc => ?_, fun j worker hWorker hOpened => ?_,
    hExclusive.free⟩
  · obtain ⟨hHeld, -⟩ := hExclusive.inside k other hOther hOtherPc
    exact hExclusive.alone (Or.inr hHeld) hWorker hPc
  · have hPc : worker.pc ≠ .lock := by
      intro hLock
      rw [hLock] at hOpened
      exact hOpened
    exact (hExclusive.inside j worker hWorker hPc).2.con hOpened

end Exclusion

/-- Two calls pass the test before one of them raises the flag, and their threads run one
after the other. -/
def twoAttempts : List ThreadAction :=
  [.enter 0 firstInfo, .enter 1 secondInfo, .call 0, .call 1, .call 0, .call 1, .call 0, .call 1] ++
    List.replicate 9 (.work 1 (drawing 1)) ++ List.replicate 9 (.work 0 (drawing 2))

/-- Both come to their end, and the station of the one that ran last is published. -/
theorem published_behind_twoAttempts :
    ∃ s, runSteps (Threads.step .plain) (idle (.freshOver twoStations)) twoAttempts = some s ∧
      s.world.azsDb.isconn = true ∧ s.world.azsDb.azsId = ascii "3" ∧ RightStation s.world := by
  have hRun : (runSteps (Threads.step .plain) (idle (.freshOver twoStations)) twoAttempts).map
      (fun s => (s.connmutex, s.world.azsDb.isconn, s.world.azsDb.azsId)) =
        some (none, true, ascii "3") := by
    decide +kernel
  obtain ⟨s, hFinal, hEnd⟩ := Option.map_eq_some_iff.mp hRun
  obtain ⟨hMutex, hIsconn, hId⟩ : s.connmutex = none ∧ s.world.azsDb.isconn = true ∧
      s.world.azsDb.azsId = ascii "3" := by
    simpa using hEnd
  have hRight : RightStation (.freshOver twoStations) := fun hTrue => by cases hTrue
  obtain ⟨-, -, hFree⟩ :=
    published_between_attempts .plain (.freshOver twoStations) hRight twoAttempts s hFinal
  exact ⟨s, hFinal, hIsconn, hId, hFree hMutex⟩

end Threads

end Server
end AzsServer
