import AzsServer.Library.Runs
import AzsServer.Server.Logins
import AzsServer.Server.Serving

/-!
# Calls through the null connection

`con` is null until the first `driver->connect` returns.  From then on it is set,
so a handler that runs only while `isconn` is true never meets the null pointer.
The one handler that asks the database without looking at `isconn` is `auth_post`.
-/

namespace AzsServer
namespace Server

open Core Library Local

/-- The pointer is the same, and `isconn` has not been set. -/
def DbKept (start w : World) : Prop :=
  w.azsDb.con = start.azsDb.con ∧ (w.azsDb.isconn = true → start.azsDb.isconn = true)

section Handlers

variable {pl : Platform} {start : World}

/-- Statements go through the null pointer only if it was null before. -/
theorem Calls.keeps_dbKept {α : Type} {allowed : Entry → Prop} {offRow : Prop} {m : Prog α}
    (hCalls : Calls pl allowed offRow m) :
    Keeps (DbKept start) (NullIfCalls allowed start) m := by
  refine hCalls.keeps (fun w next hInv hFramed => ?_) fun w e hInv hNull hCall => ?_
  · exact ⟨hFramed.con_eq.trans hInv.1, fun hIsconn => hInv.2 (hFramed.isconn hIsconn)⟩
  · rw [← hInv.1]
    exact hNull hCall

/-- A program that sends no statement calls nothing through the null pointer. -/
theorem silent_dbKept {α : Type} (pl : Platform) {m : Prog α}
    (hCalls : Calls pl (fun _ => False) False m) :
    Keeps (DbKept start) (fun e => e ≠ .nullCall) m :=
  hCalls.keeps_dbKept.weaken fun _ hNull hCall => (hNull hCall).2.elim fun _ hLine => hLine

theorem dbKept_afterSecret (w : World) (hInv : DbKept start w) :
    DbKept start (afterSecret pl w) := by
  unfold DbKept
  rw [azsDb_afterSecret]
  exact hInv

theorem connectAsync_dbKept {throws : Throw → Prop} (info : MysqlConnInfo) :
    Keeps (DbKept start) throws (connectAsync info) :=
  .bind .get fun _ => .ite
    (.bind (.modify fun _ hInv => hInv) fun _ => .bind (.modify fun _ hInv => hInv) fun _ =>
      .bind (.modify fun _ hInv => hInv) fun _ => .modify fun _ hInv => hInv)
    (.pure _)

theorem checkCoockie_dbKept {throws : Throw → Prop} (hStd : throws .stdException)
    (req : Request) : Keeps (DbKept start) throws (checkCoockie pl req) :=
  keeps_checkCoockie (fun w _ hInv => dbKept_afterSecret w hInv) hStd req

theorem settingsAllowed_dbKept (req : Request) :
    Keeps (DbKept start) (fun e => e ≠ .nullCall) (settingsAllowed pl req) :=
  keeps_settingsAllowed (fun w _ hInv => dbKept_afterSecret w hInv) (fun hNull => by cases hNull) req

theorem session_dbKept (req : Request) :
    Keeps (DbKept start) (fun e => e = .nullCall → start.azsDb.con = none) (session pl req) :=
  .bind (checkCoockie_dbKept (fun hNull => by cases hNull) req) fun _ => .ite
    ((Calls.adminController req).keeps_dbKept.weaken fun _ hNull hCall => (hNull hCall).1) <| .ite
      ((Calls.userController req).keeps_dbKept.weaken fun _ hNull hCall => (hNull hCall).1)
      ((silent_dbKept pl .sendAway).weaken fun _ hNe hCall => absurd hCall hNe)

theorem redirected_dbKept :
    Keeps (DbKept start) (fun e => e ≠ .nullCall) (redirect (ascii "/") >>= fun _ => endResponse) :=
  silent_dbKept .plain (.bind (.modifyResponse _) fun _ => .modifyResponse _)

theorem settingsdbError_dbKept (req : Request) :
    Keeps (DbKept start) (fun e => e ≠ .nullCall) (settingsdbError pl req) :=
  .bind (settingsAllowed_dbKept req) fun _ => .ite
    (.bind (silent_dbKept pl (.modifyResponse _)) fun _ => .bind .get fun _ =>
      silent_dbKept pl (.bind (.reloadContext _) fun _ => .writePage _ _))
    redirected_dbKept

theorem settingsdbErrorSend_dbKept (req : Request) :
    Keeps (DbKept start) (fun e => e ≠ .nullCall) (settingsdbErrorSend pl req) :=
  .bind (settingsAllowed_dbKept req) fun _ => .ite
    (.bind (silent_dbKept pl (.orThrow _)) fun _ => .bind (silent_dbKept pl (.orThrow _)) fun _ =>
      .ite (silent_dbKept pl (.replyStatus _)) <| .bind (silent_dbKept pl (.orThrow _)) fun _ =>
        .bind (connectAsync_dbKept _) fun _ => silent_dbKept pl (.replyStatus _))
    redirected_dbKept

theorem settingsdbErrorCheck_dbKept (req : Request) :
    Keeps (DbKept start) (fun e => e ≠ .nullCall) (settingsdbErrorCheck pl req) :=
  .bind (settingsAllowed_dbKept req) fun _ => .ite
    (.bind .get fun _ => .ite (silent_dbKept pl (.replyStatus _)) <|
      .ite (silent_dbKept pl (.replyStatus _)) (silent_dbKept pl (.replyStatus _)))
    redirected_dbKept

theorem authPost_dbKept (req : Request) :
    Keeps (DbKept start) (fun e => e = .nullCall → start.azsDb.con = none) (authPost pl req) := by
  apply keeps_authPost
  · exact fun hCalls => (silent_dbKept pl hCalls).weaken fun _ hNe hCall => absurd hCall hNe
  · intro userid password
    have hCheck : Calls pl Entry.isCheckLine True (authCheck userid password false) :=
      .authCheck userid password false
    exact hCheck.keeps_dbKept.weaken fun _ hNull hCall => (hNull hCall).1
  · exact fun userid => (Calls.takeShift userid).keeps_dbKept.weaken
      fun _ hNull hCall => (hNull hCall).1
  · exact keeps_issueToken dbKept_afterSecret (fun _ _ _ _ hInv => hInv) fun _ _ hInv => hInv

theorem afterRefusal_dbKept (pl : Platform) (w : World) : DbKept w (afterRefusal pl w) := by
  have hRefuse : Keeps (DbKept w) (fun _ => True) (refuse pl) :=
    .bind .get fun _ => .bind (connectAsync_dbKept _) fun _ =>
      (silent_dbKept pl (.bind (.modifyResponse _) fun _ => .writePage _ _)).weaken
        fun _ _ => trivial
  exact hRefuse.inv_endState ⟨rfl, id⟩

/-- A request ends without a call through the null pointer, unless it is a login that
can be decoded while the pointer is null. -/
def EndsWell (pl : Platform) (route : Route) (req : Request) (w : World) :
    EStateM.Result Throw World Unit → Prop
  | .ok _ next => DbKept w next
  | .error e next => DbKept w next ∧
      (e = .nullCall → route = .auth ∧ w.azsDb.con = none ∧ loginForm pl req.body ≠ none)

/-- The one handler that can meet the null pointer is `auth_post`, with a body that it
can decode. -/
theorem serve_endsWell {w : World} (hCon : w.azsDb.isconn = true → w.azsDb.con ≠ none)
    (hOpen : w.response.completed = false) (route : Route) (req : Request) :
    EndsWell pl route req w (serve pl route req w) := by
  have hStart : DbKept w w := ⟨rfl, id⟩
  have hKeepsWell : ∀ m : Prog Unit,
      Keeps (DbKept w) (fun e => e = .nullCall →
        route = .auth ∧ w.azsDb.con = none ∧ loginForm pl req.body ≠ none) m →
        EndsWell pl route req w (m w) := by
    intro m hKeeps
    have hEnd := hKeeps w hStart
    cases hRun : m w with
    | ok a next =>
        rw [hRun] at hEnd
        exact hEnd
    | error e next =>
        rw [hRun] at hEnd
        exact hEnd
  -- a handler that never meets the null pointer
  have hNever : ∀ m : Prog Unit, Keeps (DbKept w) (fun e => e ≠ .nullCall) m →
      EndsWell pl route req w (m w) := fun m hKeeps =>
    hKeepsWell m (hKeeps.weaken fun e hNe hCall => absurd hCall hNe)
  -- a handler that runs with a connection only
  have hConnected : ∀ m : Prog Unit, w.azsDb.isconn = true →
      Keeps (DbKept w) (fun e => e = .nullCall → w.azsDb.con = none) m →
        EndsWell pl route req w (m w) := fun m hIsconn hKeeps =>
    hKeepsWell m (hKeeps.weaken fun e hNull hCall => absurd (hNull hCall) (hCon hIsconn))
  by_cases hRefused : route.hasMiddleware = true ∧ w.azsDb.isconn = false
  · rw [serve_of_refused hRefused.1 req hRefused.2]
    exact afterRefusal_dbKept pl w
  have hIsconn : route.hasMiddleware = true → w.azsDb.isconn = true := fun hMiddleware => by
    by_contra hFalse
    exact hRefused ⟨hMiddleware, by simpa using hFalse⟩
  cases route with
  | publicFiles path => exact hNever _ (silent_dbKept pl (.staticFiles _))
  | root =>
      rw [serve_root_of_connected req (hIsconn rfl) hOpen]
      refine hConnected _ (hIsconn rfl) (.bind (Calls.authMain.keeps_dbKept.weaken
        fun _ hNull hCall => (hNull hCall).1) fun _ => ?_)
      exact (silent_dbKept pl (.returnContent _ _)).weaken fun _ hNe hCall => absurd hCall hNe
  | auth =>
      cases hForm : loginForm pl req.body with
      | none =>
          have hRun : serve pl .auth req w = .error .stdException w :=
            authPost_run_of_none hForm
          rw [hRun]
          exact ⟨hStart, fun hNull => by cases hNull⟩
      | some form =>
          refine hKeepsWell _ ((authPost_dbKept req).weaken fun e hNull hCall => ?_)
          exact ⟨rfl, hNull hCall, by rw [hForm]; exact Option.some_ne_none form⟩
  | settingsDberror => exact hNever _ (settingsdbError_dbKept req)
  | settingsDberrorSend => exact hNever _ (settingsdbErrorSend_dbKept req)
  | settingsDberrorCheck => exact hNever _ (settingsdbErrorCheck_dbKept req)
  | api =>
      rw [serve_api_of_connected req (hIsconn rfl) hOpen]
      exact hNever _ (silent_dbKept pl (.returnContent _ _))
  | client func =>
      rw [serve_client_of_connected func req (hIsconn rfl)]
      exact hConnected _ (hIsconn rfl) (session_dbKept req)

end Handlers

/-! ## Connecting -/

section Connecting

variable {pl : Platform} {w : World}

/-- After `connect` the pointer is set if `isconn` is. -/
theorem connect_isconn (pl : Platform) (info : MysqlConnInfo) (w : World) :
    ∃ returned next, connect pl info w = .ok returned next ∧
      (next.azsDb.isconn = true → next.azsDb.con ≠ none) := by
  by_cases hDriver : DriverWorks w.env
  · obtain ⟨valid, hValid⟩ := Option.ne_none_iff_exists'.mp hDriver.2.2
    refine ⟨_, _, connect_run_of_isValid pl info hDriver.1 hDriver.2.1 hValid, fun _ => ?_⟩
    show (afterStation ⟨info, true⟩ (saved pl info valid w)).azsDb.con ≠ none
    rw [con_afterStation, saved_con]
    exact Option.some_ne_none _
  · obtain ⟨con, hRun⟩ := connect_run_of_not_driverWorks pl info hDriver
    exact ⟨_, _, hRun, fun hIsconn => by cases hIsconn⟩

theorem startProcess_isconn (pl : Platform) (w : World) :
    ∃ next, startProcess pl w = .ok ⟨⟩ next ∧
      (next.azsDb.isconn = true → next.azsDb.con ≠ none) := by
  have hNew : ∃ info new, newProcess w = .ok info new := ⟨_, _, rfl⟩
  obtain ⟨info, new, hNew⟩ := hNew
  obtain ⟨returned, next, hConnect, hIsconn⟩ := connect_isconn pl info new
  refine ⟨next, ?_, hIsconn⟩
  rw [startProcess, bind_of_ok hNew]
  show EStateM.map (fun _ => PUnit.unit) (connect pl info) new = _
  rw [EStateM.map, hConnect]

/-- The steps of a thread behind `driver->connect`. -/
def WorkerPc.opened : WorkerPc → Prop
  | .check => True
  | .regenerate => True
  | .save => True
  | .station => True
  | _ => False

/-- The thread has set the pointer before it uses it. -/
theorem worker_run (pl : Platform) (pc : WorkerPc) (info : MysqlConnInfo)
    (hIsconn : w.azsDb.isconn = true → w.azsDb.con ≠ none)
    (hOpened : pc.opened → w.azsDb.con ≠ none) :
    (∃ next, pc.run pl info w = .ok ⟨⟩ next ∧
        (next.azsDb.isconn = true → next.azsDb.con ≠ none) ∧
        ∀ after ∈ pc.next, after.opened → next.azsDb.con ≠ none) ∨
      ∃ next, pc.run pl info w = .error .sqlException next ∧
        (next.azsDb.isconn = true → next.azsDb.con ≠ none) := by
  cases pc with
  | lock => exact Or.inl ⟨w, rfl, hIsconn, fun after hAfter => by cases hAfter; exact False.elim⟩
  | input => exact Or.inl ⟨_, rfl, hIsconn, fun after hAfter => by cases hAfter; exact False.elim⟩
  | openCon =>
      by_cases hOpen : w.env.connect = true ∧ w.env.setSchema = true
      · exact Or.inl ⟨_, openConnection_run_of_ok hOpen.1 hOpen.2,
          fun _ => Option.some_ne_none _, fun _ _ _ => Option.some_ne_none _⟩
      · obtain ⟨con, hRun, hCon⟩ := openConnection_run_of_error info w hOpen
        exact Or.inr ⟨_, hRun, fun hTrue => hCon (hIsconn hTrue)⟩
  | check =>
      obtain ⟨con, hCon⟩ := Option.ne_none_iff_exists'.mp (hOpened trivial)
      cases hValid : w.env.isValid with
      | none => exact Or.inr ⟨w, checkValid_run_of_none hCon hValid, hIsconn⟩
      | some valid =>
          exact Or.inl ⟨_, checkValid_run_of_some hCon hValid, fun _ => hOpened trivial,
            fun _ _ _ => hOpened trivial⟩
  | regenerate =>
      refine Or.inl ⟨_, regenerateSecret_run pl info w, ?_, fun _ _ _ => ?_⟩
      · rw [azsDb_afterRegenerate]
        exact hIsconn
      · rw [azsDb_afterRegenerate]
        exact hOpened trivial
  | save => exact Or.inl ⟨_, rfl, hIsconn, fun _ _ _ => hOpened trivial⟩
  | station =>
      obtain ⟨con, hCon⟩ := Option.ne_none_iff_exists'.mp (hOpened trivial)
      refine Or.inl ⟨_, getAzsId_run hCon, fun _ => ?_, fun _ _ _ => ?_⟩
      · rw [con_afterStation]
        exact hOpened trivial
      · rw [con_afterStation]
        exact hOpened trivial
  | failed => exact Or.inl ⟨_, rfl, fun hTrue => (by cases hTrue),
      fun after hAfter => by cases hAfter; exact False.elim⟩
  | clear => exact Or.inl ⟨_, rfl, hIsconn, fun after hAfter => by cases hAfter; exact False.elim⟩
  | unlock => exact Or.inl ⟨w, rfl, hIsconn, fun after hAfter => by cases hAfter⟩

end Connecting

/-! ## Runs -/

/-- The invariant: the pointer is set when `isconn` is, and when a thread uses it. -/
structure PointerSet (s : Process) : Prop where
  isconn : s.world.azsDb.isconn = true → s.world.azsDb.con ≠ none
  opened : ∀ worker, s.running = some worker → worker.pc.opened → s.world.azsDb.con ≠ none

/-- The event makes the process call a method through the null pointer. -/
def Process.NullCalls (pl : Platform) (s : Process) : Event → Prop
  | .start env => ∃ w, startProcess pl (s.world.under env) = .error .nullCall w
  | .request route cookie body env => ∃ w, s.handled pl route cookie body env = .error .nullCall w
  | .lock _ => False
  | .work env => ∃ worker w, s.running = some worker ∧
      worker.pc.run pl worker.info (s.world.under env) = .error .nullCall w

/-- The condition on an event: no login that can be decoded arrives while the pointer
is null. -/
def NoEarlyLogin (pl : Platform) (s : Process) : Event → Prop
  | .request .auth _ body _ => loginForm pl body ≠ none → s.world.azsDb.con ≠ none
  | _ => True

section Runs

variable {pl : Platform} {s next : Process}

theorem handled_endsWell (pl : Platform) (hInv : PointerSet s) (route : Route) (cookie body : Bytes) (env : Env) :
    EndsWell pl route ⟨route.url, cookie, body⟩ (s.world.received env)
      (s.handled pl route cookie body env) := by
  have hCon : (s.world.received env).azsDb.isconn = true →
      (s.world.received env).azsDb.con ≠ none := hInv.isconn
  exact serve_endsWell hCon rfl route _

/-- The start of a process sets the invariant up, whatever the last one has left. -/
theorem PointerSet.of_start {env : Env} (hStep : s.step pl (.start env) = some next) :
    PointerSet next := by
  obtain ⟨w, hRun, hIsconn⟩ := startProcess_isconn pl (s.world.under env)
  rw [Process.step, hRun] at hStep
  cases hStep
  exact ⟨hIsconn, fun worker hRunning => by cases hRunning⟩

theorem not_nullCalls_start (env : Env) : ¬ s.NullCalls pl (.start env) := by
  rintro ⟨w, hNull⟩
  obtain ⟨next, hRun, -⟩ := startProcess_isconn pl (s.world.under env)
  rw [hRun] at hNull
  cases hNull

/-- Under the invariant an event calls through the null pointer exactly when it is a
login that can be decoded while the pointer is null. -/
theorem not_nullCalls_iff (hInv : PointerSet s) (e : Event) :
    ¬ s.NullCalls pl e ↔ NoEarlyLogin pl s e := by
  cases e with
  | start env => exact iff_of_true (not_nullCalls_start env) trivial
  | lock i => exact iff_of_true not_false trivial
  | work env =>
      refine iff_of_true ?_ trivial
      rintro ⟨worker, w, hRunning, hNull⟩
      rcases worker_run pl worker.pc worker.info (w := s.world.under env) hInv.isconn
        (hInv.opened worker hRunning) with ⟨next, hRun, -⟩ | ⟨next, hRun, -⟩
      · rw [hRun] at hNull
        cases hNull
      · rw [hRun] at hNull
        cases hNull
  | request route cookie body env =>
      have hEnd := handled_endsWell pl hInv route cookie body env
      by_cases hAuth : route = .auth
      · subst hAuth
        show ¬ (∃ w, s.handled pl .auth cookie body env = .error .nullCall w) ↔
          (loginForm pl body ≠ none → s.world.azsDb.con ≠ none)
        constructor
        · intro hNot hForm hCon
          exact hNot ⟨_, authPost_run_of_null (w := s.world.received env) hCon hForm⟩
        · rintro hEarly ⟨w, hNull⟩
          rw [hNull] at hEnd
          obtain ⟨-, hCon, hForm⟩ := hEnd.2 rfl
          exact hEarly hForm hCon
      · refine iff_of_true ?_ ?_
        · rintro ⟨w, hNull⟩
          rw [hNull] at hEnd
          exact hAuth (hEnd.2 rfl).1
        · cases route with
          | auth => exact absurd rfl hAuth
          | _ => trivial

/-- Between two requests the pointer is what the handler has left. -/
theorem PointerSet.of_dbKept {w : World} {env : Env} (hInv : PointerSet s)
    (hKept : DbKept (s.world.received env) w) : PointerSet { s with world := w } where
  isconn hIsconn := by
    rw [hKept.1]
    exact hInv.isconn (hKept.2 hIsconn)
  opened worker hRunning hOpened := by
    rw [hKept.1]
    exact hInv.opened worker hRunning hOpened

/-- Every event keeps the invariant. -/
theorem PointerSet.step {e : Event} (hInv : PointerSet s) (hStep : s.step pl e = some next) :
    PointerSet next := by
  cases e with
  | start env => exact .of_start hStep
  | request route cookie body env =>
      have hEnd := handled_endsWell pl hInv route cookie body env
      cases hRun : s.handled pl route cookie body env with
      | ok a w =>
          rw [Process.step, hRun] at hStep
          rw [hRun] at hEnd
          cases hStep
          exact hInv.of_dbKept hEnd
      | error thrown w =>
          rw [Process.step, hRun] at hStep
          rw [hRun] at hEnd
          cases thrown with
          | nullCall => cases hStep
          | undefined => cases hStep
          | _ =>
              cases hStep
              exact hInv.of_dbKept hEnd.1
  | lock i =>
      rw [Process.step] at hStep
      cases hRunning : s.running with
      | some worker =>
          rw [hRunning] at hStep
          cases hStep
      | none =>
          cases hStarted : s.world.started[i]? with
          | none =>
              rw [hRunning, hStarted] at hStep
              cases hStep
          | some info =>
              rw [hRunning, hStarted] at hStep
              cases hStep
              refine ⟨hInv.isconn, fun worker hWorker hOpened => ?_⟩
              cases hWorker
              exact hOpened.elim
  | work env =>
      rw [Process.step] at hStep
      obtain ⟨worker, hRunning, hWork⟩ := Option.bind_eq_some_iff.mp hStep
      rw [Process.workStep] at hWork
      rcases worker_run pl worker.pc worker.info (w := s.world.under env) hInv.isconn
        (hInv.opened worker hRunning) with ⟨w, hRun, hIsconn, hAfter⟩ | ⟨w, hRun, hIsconn⟩
      · rw [hRun] at hWork
        cases hWork
        refine ⟨hIsconn, fun worker' hWorker' hOpened => ?_⟩
        obtain ⟨pc, hPc, rfl⟩ := Option.map_eq_some_iff.mp hWorker'
        exact hAfter pc hPc hOpened
      · rw [hRun] at hWork
        cases hWork
        refine ⟨hIsconn, fun worker' hWorker' hOpened => ?_⟩
        cases hWorker'
        exact hOpened.elim

/-- In a run that begins with a start, no event calls a method through the null pointer
exactly when no login that can be decoded arrives before the pointer is set. -/
theorem never_nullCalls_iff (pl : Platform) (s : Process) (env : Env) (events : List Event) :
    StepsMeet (Process.step pl) (fun s e => ¬ s.NullCalls pl e) s (.start env :: events) ↔
      StepsMeet (Process.step pl) (NoEarlyLogin pl) s (.start env :: events) := by
  refine and_congr (iff_of_true (not_nullCalls_start env) trivial) ?_
  refine forall_congr' fun next => forall_congr' fun hStart => ?_
  refine stepsMeet_congr ?_ ?_ (PointerSet.of_start hStart) events
  · intro s e next (hInv : PointerSet s) hStep
    exact hInv.step hStep
  · intro s e (hInv : PointerSet s)
    exact not_nullCalls_iff hInv e

/-- A login before the first connection calls a method through the null pointer. -/
theorem nullCalls_of_early_login :
    ¬ StepsMeet (Process.step clerkPlatform) (fun s e => ¬ s.NullCalls clerkPlatform e)
      Process.fresh [.start unreachable, .request .auth [] clerkBody unreachable] := by
  have hStart : ∃ s, Process.step clerkPlatform Process.fresh (.start unreachable) = some s ∧
      s.world.azsDb.con = none := by
    refine ⟨⟨_, none⟩, rfl, rfl⟩
  have hForm : loginForm clerkPlatform clerkBody ≠ none := by decide +kernel
  obtain ⟨s, hStep, hCon⟩ := hStart
  intro hMeet
  obtain ⟨hLogin, -⟩ := hMeet.2 s hStep
  exact hLogin ⟨_, authPost_run_of_null (w := s.world.received unreachable) hCon hForm⟩

end Runs

end Server
end AzsServer
