import AzsServer.Library.Runs
import AzsServer.Local.SavedConnection
import AzsServer.Server.Payload
import AzsServer.Server.Secrets
import AzsServer.Server.Serving
import Mathlib.Data.List.Infix

/-!
# Who may change the settings

A statement that changes the settings comes from a page of an administrator, behind a
cookie check that has returned 1.  Then the cookie holds a token that was signed for an
administrator under the secret in use, and its time is less than 100 minutes ago.  So
the run contains the login of an administrator that no regeneration has ended, as long
as no saved connection data reach the table `jwt`.
-/

namespace AzsServer
namespace Server

open Core Library Local

/-- A user logged in at a time, and the secret has not been regenerated since. -/
def LoginSince (w : World) (userid : Int) (time : TimePoint) : Prop :=
  ∃ before after, w.log = before ++ .login userid (decide (firstAdminId ≤ userid)) time :: after ∧
    (∀ e ∈ after, e.isLasting) ∧ time.ns ≤ w.env.now.ns

/-- An administrator logged in less than 100 minutes before a time, and the secret has not
been regenerated since. -/
def Authorised (log : List Entry) (now : TimePoint) : Prop :=
  ∃ before userid admin time after, log = before ++ .login userid admin time :: after ∧
    firstAdminId ≤ userid ∧ (∀ e ∈ after, e.isLasting) ∧
      time.ns ≤ now.ns ∧ now.ns < time.ns + 100 * 60 * 10 ^ 9

/-- The token was signed for a user that has logged in. -/
def IssuedAtLogin (pl : Platform) : SessionProperty := fun w key token _ =>
  ∃ userid time, LoginSince w userid time ∧
    token = sessionToken pl key time userid (decide (firstAdminId ≤ userid))

theorem LoginSince.lasting {w next : World} {userid : Int} {time : TimePoint}
    (hSince : LoginSince w userid time) (hNow : w.env.now.ns ≤ next.env.now.ns)
    (hLog : LogGrows Entry.isLasting w next) : LoginSince next userid time := by
  obtain ⟨before, after, hSplit, hAfter, hTime⟩ := hSince
  obtain ⟨more, hGrows, hMore⟩ := hLog
  refine ⟨before, after ++ more, ?_, fun e hMem => ?_, hTime.trans hNow⟩
  · rw [hGrows, hSplit, List.append_assoc, List.cons_append]
  · rcases List.mem_append.mp hMem with hOld | hNew
    · exact hAfter e hOld
    · exact hMore e hNew

theorem lasting_issuedAtLogin (pl : Platform) : Lasting (IssuedAtLogin pl) := by
  rintro w next _ hNow hLog key token inUse ⟨userid, time, hSince, hToken⟩
  exact ⟨userid, time, hSince.lasting hNow hLog, hToken⟩

/-! ## The role of a token -/

section Roles

variable {pl : Platform}

theorem escape_eq_self {text : Bytes} (hPlain : ∀ c ∈ text, Crow.escapeByte c = [c]) :
    Crow.escape text = text := by
  induction text with
  | nil => rfl
  | cons c text ih =>
      have hRest : Crow.escape text = text := ih fun d hMem => hPlain d (List.mem_cons_of_mem _ hMem)
      show Crow.escapeByte c ++ Crow.escape text = _
      rw [hPlain c List.mem_cons_self, hRest]
      rfl

theorem escapeByte_digitByte {d : Nat} (hDigit : d < 10) :
    Crow.escapeByte (digitByte d) = [digitByte d] := by
  interval_cases d <;> rfl

/-- The text of a time is written into the token as it is. -/
theorem escape_timetostr (z : TimeZone) (time : TimePoint) :
    Crow.escape (timetostr z time) = timetostr z time := by
  have hRange := localtime_inRange z time
  obtain ⟨hYear, ⟨-, hMonth⟩, ⟨-, hDay⟩, hHour, hMinute, hSecond⟩ := hRange
  have hPad : ∀ n < 100, ∀ c ∈ pad2 n, Crow.escapeByte c = [c] := by
    intro n hn c hMem
    rcases List.mem_pair.mp hMem with rfl | rfl
    · exact escapeByte_digitByte (by omega)
    · exact escapeByte_digitByte (by omega)
  refine escape_eq_self fun c hMem => ?_
  simp only [timetostr, putTime, pad4, List.mem_append, List.mem_cons] at hMem
  rcases hMem with (hMem | hMem) | rfl | hMem | rfl | hMem | rfl | hMem | rfl | hMem | rfl | hMem
  · exact hPad _ (by omega) c hMem
  · exact hPad _ (by omega) c hMem
  · rfl
  · exact hPad _ (by omega) c hMem
  · rfl
  · exact hPad _ (by omega) c hMem
  · rfl
  · exact hPad _ (by omega) c hMem
  · rfl
  · exact hPad _ (by omega) c hMem
  · rfl
  · exact hPad _ (by omega) c hMem

/-- The text of a flag. -/
def flagText (admin : Bool) : Bytes :=
  if admin = true then ascii "true" else ascii "false"

/-- The payload of a session, as Crow reads it. -/
def sessionPayload (pl : Platform) (time : TimePoint) (userid : Int) (admin : Bool) : Crow.Json :=
  .object [(ascii "admin", .string (flagText admin)),
    (ascii "time_create", .string (timetostr pl.zone time)),
    (ascii "user_id", .string (Crow.escape (intToString userid)))]

theorem load_sessionClaims (pl : Platform) (time : TimePoint) (userid : Int) (admin : Bool) :
    Crow.load (payloadText (sessionClaims pl time userid admin)) =
      some (sessionPayload pl time userid admin) := by
  have hClaims : sessionClaims pl time userid admin =
      [(ascii "admin", flagText admin), (ascii "time_create", timetostr pl.zone time),
        (ascii "user_id", Crow.escape (intToString userid))] := by
    cases admin with
    | false => rfl
    | true => rfl
  rw [hClaims, load_payloadText]
  rfl

theorem dumpTrue_time_create (pl : Platform) (time : TimePoint) (userid : Int) (admin : Bool) :
    Crow.dumpTrue pl.floatText ((sessionPayload pl time userid admin).member
      (ascii "time_create")) = timetostr pl.zone time :=
  escape_timetostr pl.zone time

theorem dumpTrue_admin (pl : Platform) (time : TimePoint) (userid : Int) (admin : Bool) :
    Crow.dumpTrue pl.floatText ((sessionPayload pl time userid admin).member (ascii "admin")) =
      flagText admin := by
  cases admin with
  | false => rfl
  | true => rfl

/-- The role of a session: its age is measured from the second of its issue. -/
theorem payloadRole_sessionPayload (hZone : pl.zone.Constant) (time now : TimePoint)
    (userid : Int) (admin : Bool) :
    payloadRole pl now (sessionPayload pl time userid admin) =
      if now.ns < 10 ^ 9 * (time.ns / 10 ^ 9) + 100 * 60 * 10 ^ 9 then
        if admin = true then 1 else 0
      else -1 := by
  have hAge : ageMinutes pl now (timetostr pl.zone time) =
      ((now.ns : Int) - 10 ^ 9 * (time.ns / 10 ^ 9 : Nat)).tdiv (60 * 10 ^ 9) := by
    rw [ageMinutes, strtotime_timetostr_of_constant hZone]
  have hYoung : ageMinutes pl now (timetostr pl.zone time) < 100 ↔
      now.ns < 10 ^ 9 * (time.ns / 10 ^ 9) + 100 * 60 * 10 ^ 9 := by
    have hAbove := Int.lt_tdiv_add_one_mul_self
      ((now.ns : Int) - 10 ^ 9 * (time.ns / 10 ^ 9 : Nat)) (by norm_num : (0 : Int) < 60 * 10 ^ 9)
    rw [hAge]
    constructor
    · intro hLess
      omega
    · intro hLess
      by_contra hNot
      have hMul := Int.tdiv_mul_le ((now.ns : Int) - 10 ^ 9 * (time.ns / 10 ^ 9 : Nat))
        (by norm_num : (60 * 10 ^ 9 : Int) ≠ 0)
      have hMinute : (60 * 10 ^ 9 : Int).natAbs = 60 * 10 ^ 9 := by norm_num
      rw [hMinute] at hMul
      split_ifs at hMul
      · omega
      · omega
  have hFlag : flagText admin = ascii "true" ↔ admin = true := by
    cases admin with
    | true => exact iff_of_true rfl rfl
    | false => exact iff_of_false (by decide) (by decide)
  unfold payloadRole
  rw [dumpTrue_time_create, dumpTrue_admin]
  simp only [hYoung, hFlag]

/-- A session that passes for an administrator's was issued to one, less than 100 minutes
ago. -/
theorem payloadRole_eq_one {time now : TimePoint} {userid : Int} {admin : Bool}
    (hZone : pl.zone.Constant)
    (hRole : payloadRole pl now (sessionPayload pl time userid admin) = 1) :
    admin = true ∧ now.ns < time.ns + 100 * 60 * 10 ^ 9 := by
  rw [payloadRole_sessionPayload hZone] at hRole
  split_ifs at hRole with hYoung hAdmin
  · exact ⟨hAdmin, by omega⟩
  · cases hRole

end Roles

/-! ## Events -/

/-- What the environment delivers for an event. -/
def Event.env? : Event → Option Env
  | .start env => some env
  | .request _ _ _ env => some env
  | .lock _ => none
  | .work env => some env

/-- The state in which an event ends. -/
def Process.endOf (pl : Platform) (s : Process) : Event → World
  | .start env => endState (startProcess pl) (s.world.under env)
  | .request route cookie body env =>
      endState (serve pl route ⟨route.url, cookie, body⟩) (s.world.received env)
  | .lock _ => s.world
  | .work env =>
      match s.running with
      | some worker => endState (worker.pc.run pl worker.info) (s.world.under env)
      | none => s.world

/-- What may be assumed of an event: the clock does not go back, and SQLite, the drawn
secrets and the tokens behave ideally. -/
def IdealEvent (pl : Platform) (s : Process) (e : Event) : Prop :=
  ∀ env ∈ e.env?, s.world.env.now.ns ≤ env.now.ns ∧ IdealStep env s.world (s.endOf pl e)

/-- The condition on an event: a statement that saves connection data leaves the table
`jwt` alone. -/
def SavesSpareJwt (pl : Platform) (s : Process) : Event → Prop
  | .start _ => StartSparesJwt pl s.world
  | .work _ => ∀ worker ∈ s.running, worker.pc = .save →
      SparesJwt pl.sqlite worker.info s.world.ld.data.idLast
  | _ => True

/-- Every statement of the event that changes the settings is preceded by the login of an
administrator, less than 100 minutes before and without a regeneration since. -/
def SettingsGuarded (pl : Platform) (s : Process) (e : Event) : Prop :=
  ∀ env ∈ e.env?, ∀ u executed, u.isSettings = true →
    .update u executed ∈ (s.endOf pl e).linesSince s.world → Authorised s.world.log env.now

/-- Lines other than a statement that changes the settings. -/
def Entry.isHarmless : Entry → Prop
  | .update u _ => u.isSettings = false
  | _ => True

theorem Entry.IsShiftLine.isHarmless {e : Entry} (hLine : e.isShiftLine) : e.isHarmless := by
  cases e with
  | update u executed => exact hLine
  | _ => trivial

section Events

variable {pl : Platform} {s next : Process} {w : World}

/-- A login issues its token for the user that has logged in. -/
theorem InEvent.login {req : Request} (hIn : InEvent (IssuedAtLogin pl) w) :
    InEvent (IssuedAtLogin pl) (endState (Server.authPost pl req) w) := by
  apply hIn.authPost (fun userid v => LoginSince v userid v.env.now) (lasting_issuedAtLogin pl)
  · intro con userid _
    exact ⟨_, [], rfl, fun e hMem => (by cases hMem), le_rfl⟩
  · intro userid v next hSince hFramed
    have hNow : next.env.now = v.env.now := by rw [hFramed.env]
    rw [hNow]
    refine hSince.lasting (by rw [hNow]) (hFramed.log.mono fun e hLine => ?_)
    exact Entry.IsQuiet.isLasting
      (Entry.IsDatabaseLine.isQuiet (Entry.IsShiftLine.isDatabaseLine hLine))
  · intro userid v key hSince
    refine ⟨userid, v.env.now, hSince.lasting ?_ ?_, rfl⟩
    · show v.env.now.ns ≤ (Server.afterSecret pl v).env.now.ns
      rw [now_afterSecret]
    · exact (InEvent.lasting_afterSecret pl v).trans (.of_line rfl trivial)

theorem InEvent.connectAsync {info : MysqlConnInfo} (hIn : InEvent (IssuedAtLogin pl) w) :
    InEvent (IssuedAtLogin pl) (endState (Server.connectAsync info) w) := by
  by_cases hFlag : w.azsDb.whileConn = false
  · have hRun : endState (Server.connectAsync info) w = { w with
        azsDb := { w.azsDb with lastInputInfo := info, whileConn := true }
        log := w.log ++ [.connecting info]
        started := w.started ++ [info] } := by
      rw [endState, Server.connectAsync, get_bind_run, ite_run, if_pos hFlag]
      rfl
    rw [hRun]
    refine hIn.quiet hIn.sqlite rfl (Or.inr rfl) (.of_line rfl trivial) ?_
    exact lasting_issuedAtLogin pl w _ rfl le_rfl (.of_line rfl trivial)
  · have hRun : endState (Server.connectAsync info) w = w := by
      rw [endState, Server.connectAsync, get_bind_run, ite_run, if_neg hFlag]
      rfl
    rw [hRun]
    exact hIn

/-- Every request keeps the property. -/
theorem InEvent.serve (route : Route) (req : Request) (hIn : InEvent (IssuedAtLogin pl) w)
    (hOpen : w.response.completed = false) :
    InEvent (IssuedAtLogin pl) (endState (Server.serve pl route req) w) := by
  apply endState_serve (InEvent (IssuedAtLogin pl)) route req hIn hOpen
  · exact fun v next hIn hFramed => hIn.framed (lasting_issuedAtLogin pl) hFramed.ofShiftLines
  · exact fun v bare hIn => hIn.afterVerify (lasting_issuedAtLogin pl)
  · exact fun v info hIn => hIn.connectAsync
  · exact fun _ => hIn.login
  · intro func next _ _ _ hNext
    have hAdmin : Keeps (InEvent (IssuedAtLogin pl)) (fun _ => True) (Admin.controller pl req) :=
      (Calls.adminController req).keeps
        (fun v next hIn hFramed => hIn.framed (lasting_issuedAtLogin pl) hFramed)
        fun _ _ _ _ => trivial
    exact hAdmin.inv_endState hNext

/-- The steps of a thread write the lines of a connect attempt. -/
theorem lines_work (pl : Platform) (pc : WorkerPc) (info : MysqlConnInfo) (w : World) :
    LogGrows Entry.isConnectLine w (endState (pc.run pl info) w) := by
  have hEnds := endState_work pl pc info w
  generalize endState (pc.run pl info) w = next at hEnds ⊢
  cases hEnds with
  | member => exact .of_eq rfl
  | regenerate => exact lines_afterRegenerate pl info w
  | save => exact .of_eq rfl
  | station => exact .of_line rfl trivial

/-- Every step of a thread keeps the property. -/
theorem InEvent.work (pc : WorkerPc) {info : MysqlConnInfo}
    (hIn : InEvent (IssuedAtLogin pl) w)
    (hSpares : pc = .save → SparesJwt pl.sqlite info w.ld.data.idLast) :
    InEvent (IssuedAtLogin pl) (endState (pc.run pl info) w) := by
  have hLasting := lasting_issuedAtLogin pl
  have hEnds := endState_work pl pc info w
  generalize endState (pc.run pl info) w = next at hEnds ⊢
  cases hEnds with
  | @member _ db hLast _ => exact hIn.mapDb (f := fun _ => db) hLasting hLast
  | regenerate => exact hIn.afterRegenerate pl info fun _ _ _ _ hProperty => hProperty
  | save =>
      refine InEvent.afterSave hIn (hSpares rfl) ?_
      rintro key token inUse ⟨userid, time, hSince, hToken⟩
      exact ⟨userid, time, hSince.lasting le_rfl (.of_eq rfl), hToken⟩
  | @station con => exact hIn.afterStation hLasting con

end Events

/-! ## Runs -/

/-- The invariant between two events: the living sessions were issued at logins. -/
def Guarded (pl : Platform) (s : Process) : Prop := SessionsHave (IssuedAtLogin pl) s.world

section Runs

variable {pl : Platform} {s next : Process} {e : Event}

/-- At the beginning of an event. -/
theorem Guarded.inEvent (hGuarded : Guarded pl s) {env : Env} (hWorks : env.SqliteWorks)
    (hClock : s.world.env.now.ns ≤ env.now.ns) :
    InEvent (IssuedAtLogin pl) (s.world.under env) := by
  refine ⟨hWorks, fun _ => ⟨hGuarded.kept.quiet rfl (Or.inr rfl) (.of_eq rfl), ?_⟩⟩
  intro key token inUse hLive
  refine lasting_issuedAtLogin pl s.world _ ?_ ?_ ?_ key token inUse
    (hGuarded.live key token inUse ⟨hLive.row, hLive.signed⟩)
  · rfl
  · exact hClock
  · exact .of_eq rfl

/-- At the beginning of a request. -/
theorem Guarded.inRequest (hGuarded : Guarded pl s) {env : Env} (hWorks : env.SqliteWorks)
    (hClock : s.world.env.now.ns ≤ env.now.ns) :
    InEvent (IssuedAtLogin pl) (s.world.received env) := by
  have hIn := hGuarded.inEvent hWorks hClock
  refine hIn.quiet hIn.sqlite rfl (Or.inr rfl) (.of_eq rfl) ?_
  exact lasting_issuedAtLogin pl _ _ rfl le_rfl (.of_eq rfl)

/-- Every event that meets the condition keeps the property until its end. -/
theorem Guarded.endOf (hGuarded : Guarded pl s) (hIdeal : IdealEvent pl s e)
    (hSpares : SavesSpareJwt pl s e) : SessionsHave (IssuedAtLogin pl) (s.endOf pl e) := by
  cases e with
  | start env =>
      obtain ⟨hClock, hStep⟩ := hIdeal env rfl
      have hIn := hGuarded.inEvent hStep.sqlite hClock
      refine (hIn.startProcess (lasting_issuedAtLogin pl) ?_ hSpares).sessions hStep.distinct
      rintro key token inUse - ⟨userid, time, hSince, hToken⟩
      exact ⟨userid, time, hSince.lasting le_rfl (.of_eq rfl), hToken⟩
  | request route cookie body env =>
      obtain ⟨hClock, hStep⟩ := hIdeal env rfl
      have hIn := hGuarded.inRequest hStep.sqlite hClock
      exact (hIn.serve route ⟨route.url, cookie, body⟩ rfl).sessions hStep.distinct
  | lock i => exact hGuarded
  | work env =>
      obtain ⟨hClock, hStep⟩ := hIdeal env rfl
      have hIn := hGuarded.inEvent hStep.sqlite hClock
      have hDistinct := hStep.distinct
      unfold Process.endOf at hDistinct ⊢
      cases hRunning : s.running with
      | none => exact hGuarded
      | some worker =>
          rw [hRunning] at hDistinct
          exact (hIn.work worker.pc fun hSave =>
            hSpares worker (by rw [hRunning]; rfl) hSave).sessions hDistinct

theorem sessionsHave_congr {w v : World} (hLd : v.ld = w.ld) (hLog : v.log = w.log)
    (hEnv : v.env = w.env) (hSessions : SessionsHave (IssuedAtLogin pl) w) :
    SessionsHave (IssuedAtLogin pl) v := by
  refine ⟨hSessions.kept.quiet (by rw [hLd]) (Or.inr (by rw [hLd])) (.of_eq hLog), ?_⟩
  intro key token inUse hLive
  obtain ⟨userid, time, hSince, hToken⟩ :=
    hSessions.live key token inUse ⟨by rw [← hLd]; exact hLive.row, by rw [← hLog]; exact hLive.signed⟩
  exact ⟨userid, time, hSince.lasting (by rw [hEnv]) (.of_eq hLog), hToken⟩

/-- The next state is the one in which the event has ended, but for the threads. -/
theorem world_of_step (hStep : s.step pl e = some next) :
    next.world.ld = (s.endOf pl e).ld ∧ next.world.log = (s.endOf pl e).log ∧
      next.world.env = (s.endOf pl e).env := by
  cases e with
  | start env =>
      rw [Process.step] at hStep
      rw [Process.endOf, endState]
      cases hRun : startProcess pl (s.world.under env) with
      | ok a w =>
          rw [hRun] at hStep
          cases hStep
          exact ⟨rfl, rfl, rfl⟩
      | error thrown w =>
          rw [hRun] at hStep
          cases hStep
  | request route cookie body env =>
      rw [Process.step, Process.behindHandler] at hStep
      obtain ⟨w, hNext, rfl⟩ := Option.map_eq_some_iff.mp hStep
      have hEnd : s.endOf pl (.request route cookie body env) = w := endState_of_goesOn hNext
      rw [hEnd]
      exact ⟨rfl, rfl, rfl⟩
  | lock i =>
      rw [Process.step] at hStep
      split at hStep
      · cases hStep
        exact ⟨rfl, rfl, rfl⟩
      · cases hStep
  | work env =>
      rw [Process.step] at hStep
      obtain ⟨worker, hRunning, hWork⟩ := Option.bind_eq_some_iff.mp hStep
      have hEnd : s.endOf pl (.work env) =
          endState (worker.pc.run pl worker.info) (s.world.under env) := by
        rw [Process.endOf, hRunning]
      rw [Process.workStep] at hWork
      rw [hEnd, endState]
      cases hRun : worker.pc.run pl worker.info (s.world.under env) with
      | ok a w =>
          rw [hRun] at hWork
          cases hWork
          exact ⟨rfl, rfl, rfl⟩
      | error thrown w =>
          rw [hRun] at hWork
          cases thrown with
          | sqlException =>
              cases hWork
              exact ⟨rfl, rfl, rfl⟩
          | _ => cases hWork

/-- Every event that meets the condition keeps the invariant. -/
theorem Guarded.step (hGuarded : Guarded pl s) (hIdeal : IdealEvent pl s e)
    (hSpares : SavesSpareJwt pl s e) (hStep : s.step pl e = some next) : Guarded pl next := by
  obtain ⟨hLd, hLog, hEnv⟩ := world_of_step hStep
  exact sessionsHave_congr hLd hLog hEnv (hGuarded.endOf hIdeal hSpares)

/-- A cookie that passes belongs to a login, and its role is the one of the session of this
login. -/
theorem login_of_checkCoockie {w after : World} {req : Request} {role : Int}
    (hDecode : ∀ key claims, pl.jwt.decode (pl.jwt.sign key (payloadText claims)) =
      some (payloadText claims))
    (hSessions : SessionsHave (IssuedAtLogin pl) w)
    (hWorks : w.env.SqliteWorks) (hRun : checkCoockie pl req w = .ok role after) (hRole : role ≠ -1)
    (hFresh : (drawnSecrets after.log).Nodup)
    (hUnforged : ∀ key token, .verified key token true ∈ after.linesSince w →
      issuedOver key token w.log ≠ []) :
    ∃ userid time, LoginSince w userid time ∧
      payloadRole pl w.env.now
        (sessionPayload pl time userid (decide (firstAdminId ≤ userid))) = role := by
  rcases checkCoockie_cases pl req w with hError | hNone | ⟨token, bare, payload, hPayload, hEnd⟩
  · rw [hError] at hRun
    cases hRun
  · rw [hNone] at hRun
    exact absurd (EStateM.Result.ok.inj hRun).1.symm hRole
  rw [hEnd] at hRun
  obtain ⟨hResult, rfl⟩ := EStateM.Result.ok.inj hRun
  split_ifs at hResult with hAccepted
  swap
  · exact absurd hResult.symm hRole
  -- the token was signed under the secret that is handed out
  have hVerified : .verified (afterSecret pl w).ld.data.secretjwt bare true ∈
      (afterVerify pl bare w).linesSince w := by
    obtain ⟨more, hLog, -⟩ := log_afterSecret pl w
    rw [World.linesSince, afterVerify, hAccepted]
    show _ ∈ ((afterSecret pl w).log ++ [_]).drop w.log.length
    rw [hLog, List.append_assoc, List.drop_left]
    exact List.mem_append_right _ List.mem_cons_self
  obtain ⟨inUse, hIssued⟩ := List.exists_mem_of_ne_nil _ (hUnforged _ _ hVerified)
  have hVerifyLine : LogGrows Entry.isQuiet (afterSecret pl w) (afterVerify pl bare w) :=
    .of_line rfl trivial
  have hLive := liveSession_of_handedOut hSessions.kept hWorks (hVerifyLine.nodup hFresh)
    (mem_issuedOver.mp hIssued)
  -- so it was signed at a login
  obtain ⟨userid, time, hSince, hToken⟩ := hSessions.live _ _ _ hLive
  obtain ⟨text, hText, hLoad⟩ := payload_of_tokenPayload hPayload
  rw [hToken, sessionToken, hDecode] at hText
  obtain rfl := Option.some.inj hText
  rw [load_sessionClaims] at hLoad
  obtain rfl := Option.some.inj hLoad
  exact ⟨userid, time, hSince, hResult⟩

/-- A cookie that passes for an administrator's belongs to the login of one. -/
theorem authorised_of_checkCoockie {w after : World} {req : Request}
    (hDecode : ∀ key text, pl.jwt.decode (pl.jwt.sign key text) = some text)
    (hZone : pl.zone.Constant) (hSessions : SessionsHave (IssuedAtLogin pl) w)
    (hWorks : w.env.SqliteWorks) (hRun : checkCoockie pl req w = .ok 1 after)
    (hFresh : (drawnSecrets after.log).Nodup)
    (hUnforged : ∀ key token, .verified key token true ∈ after.linesSince w →
      issuedOver key token w.log ≠ []) : Authorised w.log w.env.now := by
  obtain ⟨userid, time, ⟨before, later, hLog, hLater, hTime⟩, hRole⟩ :=
    login_of_checkCoockie (fun key claims => hDecode key (payloadText claims)) hSessions hWorks hRun
      (by decide) hFresh hUnforged
  obtain ⟨hAdmin, hYoung⟩ := payloadRole_eq_one hZone hRole
  exact ⟨before, userid, _, time, later, hLog, of_decide_eq_true hAdmin, hLater, hTime, hYoung⟩

/-- The check of a cookie only adds to the log. -/
theorem nodup_before {w after : World} {req : Request} {role : Int}
    (hRun : checkCoockie pl req w = .ok role after) (hFresh : (drawnSecrets after.log).Nodup) :
    (drawnSecrets w.log).Nodup := by
  rcases checkCoockie_cases pl req w with hError | hNone | ⟨token, bare, payload, -, hEnd⟩
  · rw [hError] at hRun
    cases hRun
  · rw [hNone] at hRun
    obtain ⟨-, rfl⟩ := EStateM.Result.ok.inj hRun
    exact hFresh
  · rw [hEnd] at hRun
    obtain ⟨-, rfl⟩ := EStateM.Result.ok.inj hRun
    have hVerifyLine : LogGrows Entry.isQuiet (afterSecret pl w) (afterVerify pl bare w) :=
      .of_line rfl trivial
    exact nodup_of_afterSecret (hVerifyLine.nodup hFresh)

theorem Entry.IsConnectLine.isHarmless {e : Entry} (hLine : e.isConnectLine) :
    e.isHarmless := by
  cases e with
  | update u executed => exact hLine.elim
  | _ => trivial

/-- Without the session of an administrator a request changes no settings. -/
theorem harmless_serve {w : World} {route : Route} {req : Request}
    (hOpen : w.response.completed = false)
    (hDenied : ∀ func next, route = .client func → w.azsDb.isconn = true →
      checkCoockie pl req w ≠ .ok 1 next) :
    LogGrows Entry.isHarmless w (endState (serve pl route req) w) := by
  have hShift : ∀ v next, LogGrows Entry.isHarmless w v → Framed Entry.isShiftLine v next →
      LogGrows Entry.isHarmless w next := fun v next hGrows hFramed =>
    hGrows.trans (hFramed.log.mono fun _ => Entry.IsShiftLine.isHarmless)
  have hSecret : ∀ v, LogGrows Entry.isHarmless v (afterSecret pl v) := fun v => by
    obtain ⟨more, hLog, hMore⟩ := log_afterSecret pl v
    refine ⟨more, hLog, fun e hMem => ?_⟩
    obtain ⟨drawn, returned, rfl⟩ := hMore e hMem
    trivial
  apply endState_serve (LogGrows Entry.isHarmless w) route req (.of_eq rfl) hOpen hShift
  · exact fun v bare hGrows => (hGrows.trans (hSecret v)).trans (.of_line rfl trivial)
  · intro v info hGrows
    refine hGrows.trans ?_
    unfold connectAsync endState
    rw [get_bind_run, ite_run]
    split_ifs
    · exact .of_line rfl trivial
    · exact .of_eq rfl
  · intro _
    apply endState_authPost (LogGrows Entry.isHarmless w) (fun _ => LogGrows Entry.isHarmless w)
      (.of_eq rfl) hShift
    · intro con userid _
      exact .trans (w := w.popSql.observed (.select (passwordSql userid) true))
        (.of_line rfl trivial) (.of_line rfl trivial)
    · exact fun userid => hShift
    · exact fun userid v hGrows => hGrows
    · exact fun userid v hGrows => (hGrows.trans (hSecret v)).trans (.of_line rfl trivial)
  · exact fun func next hRoute hIsconn hRun _ => absurd hRun (hDenied func next hRoute hIsconn)

/-- An event of a run that meets the condition is guarded. -/
theorem Guarded.settingsGuarded (hDecode : ∀ key text, pl.jwt.decode (pl.jwt.sign key text) = some text)
    (hZone : pl.zone.Constant) (hGuarded : Guarded pl s) (hIdeal : IdealEvent pl s e) :
    SettingsGuarded pl s e := by
  intro env hEnv u executed hSettings hLine
  have hHarmless : ¬ LogGrows Entry.isHarmless s.world (s.endOf pl e) := fun hGrows => by
    have hFalse : u.isSettings = false := hGrows.mem_linesSince hLine
    rw [hSettings] at hFalse
    cases hFalse
  cases e with
  | start start =>
      exact absurd ((lines_startProcess pl (s.world.under start)).mono
        fun _ => Entry.IsConnectLine.isHarmless) hHarmless
  | lock i => cases hEnv
  | work start =>
      unfold Process.endOf at hHarmless
      cases hRunning : s.running with
      | none =>
          rw [hRunning] at hHarmless
          exact absurd (.of_eq rfl) hHarmless
      | some worker =>
          rw [hRunning] at hHarmless
          exact absurd ((lines_work pl worker.pc worker.info (s.world.under start)).mono
            fun _ => Entry.IsConnectLine.isHarmless) hHarmless
  | request route cookie body start =>
      obtain rfl : start = env := Option.some.inj hEnv
      obtain ⟨hClock, hStep⟩ := hIdeal start rfl
      by_contra hNot
      refine hHarmless (harmless_serve rfl fun func after hRoute hIsconn hRun => hNot ?_)
      -- the session goes on to the functions of the administrator
      have hEnd : s.endOf pl (.request route cookie body start) =
          endState (Admin.controller pl ⟨route.url, cookie, body⟩) after := by
        subst hRoute
        rw [Process.endOf, endState, serve_client_of_connected func _ hIsconn, session,
          bind_of_ok hRun]
        rfl
      have hGrows : LogGrows Entry.isDatabaseLine after
          (s.endOf pl (.request route cookie body start)) := by
        rw [hEnd]
        exact (((Calls.adminController _).framed).inv_endState (.refl _ after)).log
      have hFresh := hGrows.nodup hStep.distinct
      have hSessions : SessionsHave (IssuedAtLogin pl) (s.world.received start) :=
        (hGuarded.inRequest hStep.sqlite hClock).sessions (nodup_before hRun hFresh)
      refine authorised_of_checkCoockie hDecode hZone hSessions hStep.sqlite hRun hFresh
        fun key token hMem => ?_
      exact hStep.unforged key token (hGrows.mem_linesSince_of_mem hMem)

end Runs

/-! ## Two runs -/

instance : DecidablePred Entry.isLasting
  | .generate true _ _ => isFalse fun hFalse => hFalse
  | .generate false _ _ => isTrue trivial
  | .select _ _ => isTrue trivial
  | .update _ _ => isTrue trivial
  | .login _ _ _ => isTrue trivial
  | .signed _ _ _ => isTrue trivial
  | .verified _ _ _ => isTrue trivial
  | .connecting _ => isTrue trivial

/-- The log from the login of an administrator on that no regeneration has ended. -/
def startsWithLogin (now : TimePoint) : List Entry → Bool
  | .login userid _ time :: after =>
      decide (firstAdminId ≤ userid) && after.all (fun e => decide e.isLasting) &&
        decide (time.ns ≤ now.ns ∧ now.ns < time.ns + 100 * 60 * 10 ^ 9)
  | _ => false

theorem authorised_iff {log : List Entry} {now : TimePoint} :
    Authorised log now ↔ ∃ tail ∈ log.tails, startsWithLogin now tail = true := by
  constructor
  · rintro ⟨before, userid, admin, time, after, hLog, hAdmin, hAfter, hTime, hYoung⟩
    refine ⟨.login userid admin time :: after, (List.mem_tails _ _).mpr ⟨before, hLog.symm⟩, ?_⟩
    simp only [startsWithLogin, Bool.and_eq_true, decide_eq_true_eq, List.all_eq_true]
    exact ⟨⟨hAdmin, hAfter⟩, hTime, hYoung⟩
  · rintro ⟨tail, hTail, hStarts⟩
    obtain ⟨before, hLog⟩ := (List.mem_tails _ _).mp hTail
    match tail, hStarts with
    | .login userid admin time :: after, hStarts =>
        simp only [startsWithLogin, Bool.and_eq_true, decide_eq_true_eq, List.all_eq_true]
          at hStarts
        obtain ⟨⟨hAdmin, hAfter⟩, hTime, hYoung⟩ := hStarts
        exact ⟨before, userid, admin, time, after, hLog.symm, hAdmin, hAfter, hTime, hYoung⟩

instance (log : List Entry) (now : TimePoint) : Decidable (Authorised log now) :=
  decidable_of_iff _ authorised_iff.symm

/-- A statement that changes the settings. -/
def Entry.changesSettings : Entry → Bool
  | .update u _ => u.isSettings
  | _ => false

theorem settingsGuarded_iff {pl : Platform} {s : Process} {e : Event} :
    SettingsGuarded pl s e ↔
      ∀ env ∈ e.env?, ∀ line ∈ (s.endOf pl e).linesSince s.world,
        line.changesSettings = true → Authorised s.world.log env.now := by
  refine forall_congr' fun env => forall_congr' fun _ => ⟨fun h line hLine hChanges => ?_, ?_⟩
  · cases line with
    | update u executed => exact h u executed hChanges hLine
    | _ => cases hChanges
  · exact fun h u executed hSettings hLine => h _ hLine hSettings

instance (pl : Platform) (s : Process) : DecidablePred (SettingsGuarded pl s) :=
  fun _ => decidable_of_iff _ settingsGuarded_iff.symm

instance (pl : Platform) (s : Process) : DecidablePred (IdealEvent pl s) := fun e =>
  inferInstanceAs (Decidable (∀ env ∈ e.env?, _ ∧ _))

/-- The form of the login of the first administrator. -/
def chiefForm : Nlohmann.Json := .array [formEntry (ascii "1000000"), formEntry (ascii "pw")]

/-- The request to delete a product. -/
def deletion : Nlohmann.Json :=
  .object [(ascii "tovars", .array [.object [(ascii "id_tovar", .int 1)]])]

/-- The first secret that is drawn. -/
def oldSecret : Bytes := generateSecretKey 15 fun _ => 0

/-- Connection data whose password goes on as a statement that writes an old secret. -/
def quotedInfo : MysqlConnInfo :=
  { secondInfo with
    password := ascii "x\",\"azs\",\"3306\"); UPDATE jwt SET jwt=\"" ++ oldSecret ++
      ascii "\"; INSERT INTO mysql_db (ip,login,password,database,port) VALUES (\"\",\"\",\"x" }

/-- SQLite on the text that saves these data: two rows and the old secret. -/
def quotedEngine : SqliteEngine where
  other tables sql :=
    if sql = insertMysqlDbSql quotedInfo then
      some
        { mysqlDb :=
            (tables.mysqlDb.insert { secondInfo with password := ascii "x" }).insert
              ⟨[], [], ascii "x", ascii "azs", ascii "3306"⟩
          jwt := tables.jwt.updateId 1 fun _ => oldSecret }
    else none

/-- The platform of the runs. -/
def guardPlatform (engine : SqliteEngine) : Platform :=
  { Platform.plain.exchanging [chiefForm, infoForm firstInfo, infoForm quotedInfo, deletion] with
    sqlite := engine }

/-- A database in which the first administrator is registered. -/
def chiefTables : Mysql.Tables :=
  { locConst := [⟨ascii "cnst_ID_Station", ascii "3"⟩], locUsers := [⟨1000000, ascii "pw", 3⟩] }

/-- The cookie of the first administrator under the first secret. -/
def chiefCookie : Bytes :=
  ascii "refresh_token=" ++ sessionToken (guardPlatform quotedEngine) oldSecret .epoch 1000000 true

/-- The first administrator connects the station and logs in. -/
def chiefStart : List Event :=
  .start unreachable :: posted .settingsDberrorSend [] (infoForm firstInfo) 0 :: attempt 0 ++
    [posted .auth [] chiefForm 1]

/-- He connects to a second database, comes back, and deletes a product with the session of
his first login. -/
def secretReturns : List Event :=
  chiefStart ++ posted .settingsDberrorSend chiefCookie (infoForm quotedInfo) 1 :: attempt 1 ++
    [.start (drawing 2), posted (.client .apiSettingsDelete) chiefCookie deletion 3]

/-- The data that an event may save stay inside their quotes. -/
def SavesUnquoted (s : Process) : Event → Prop
  | .start _ => s.world.savedInfo.Unquoted
  | .work _ => ∀ worker ∈ s.running, worker.info.Unquoted
  | _ => True

instance (s : Process) : DecidablePred (SavesUnquoted s)
  | .start _ => inferInstanceAs (Decidable s.world.savedInfo.Unquoted)
  | .request _ _ _ _ => isTrue trivial
  | .lock _ => isTrue trivial
  | .work _ => inferInstanceAs (Decidable (∀ worker ∈ s.running, worker.info.Unquoted))

theorem SavesUnquoted.savesSpareJwt {s : Process} {e : Event} (hUnquoted : SavesUnquoted s e)
    (pl : Platform) : SavesSpareJwt pl s e := by
  cases e with
  | start env => exact sparesJwt_of_unquoted hUnquoted _
  | request route cookie body env => trivial
  | lock i => trivial
  | work env => exact fun worker hRunning _ => sparesJwt_of_unquoted (hUnquoted worker hRunning) _

/-- The first administrator connects the station, logs in, and deletes a product. -/
def chiefDeletes : List Event :=
  chiefStart ++ [posted (.client .apiSettingsDelete) chiefCookie deletion 2]

end Server
end AzsServer
