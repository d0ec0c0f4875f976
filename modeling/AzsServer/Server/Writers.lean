import AzsServer.Server.SessionRoundTrip

/-!
# Who may write to the database

Of all routes only the login and four pages behind a session send statements that change
a database.  A login puts the accepted user into a shift, a session ends one, and the
session of an administrator changes the settings.  So a shift is only ended within 100
minutes of a login, as long as no saved connection data reach the table `jwt`.
-/

namespace AzsServer
namespace Server

open Core Library Local

/-- The operator that a statement gives a shift. -/
def operatorOf : Mysql.Update → Option Int
  | .smenaChangeOperator idOperator _ => some idOperator
  | .smenaAddOperator _ _ _ idOperator => some idOperator
  | _ => none

/-- The end of a shift. -/
def endsShift : Mysql.Update → Prop
  | .smenaClose _ _ => True
  | _ => False

/-- The statements that a request may send, by what is checked of it. -/
inductive Permitted (pl : Platform) (w : World) (req : Request) : Route → Mysql.Update → Prop where
  | login {con : Connection} {userid : Int} {u : Mysql.Update}
      (hAccepted : LoginAccepted pl w req.body con userid)
      (hOperator : operatorOf u = some userid) : Permitted pl w req .auth u
  | close {role : Int} {u : Mysql.Update} (hIsconn : w.azsDb.isconn = true)
      (hRole : cookieRole pl req w = some role) (hKnown : role = 0 ∨ role = 1)
      (hEnds : endsShift u) : Permitted pl w req (.client .apiOutshift) u
  | settings {func : ClientCall} {u : Mysql.Update} (hIsconn : w.azsDb.isconn = true)
      (hRole : cookieRole pl req w = some 1) (hWrites : func.writesSettings = true)
      (hSettings : u.isSettings = true) : Permitted pl w req (.client func) u

/-- A line whose statement, if it is one that changes the database, is admitted. -/
def Entry.writesOnly (permits : Mysql.Update → Prop) : Entry → Prop
  | .update u _ => permits u
  | _ => True

theorem Entry.writesOnly_of_select {permits : Mysql.Update → Prop} (e : Entry)
    (hLine : e.isSelect) : e.writesOnly permits := by
  cases e with
  | select sql executed => trivial
  | _ => exact hLine.elim

theorem Entry.WritesOnly.mono {permits more : Mysql.Update → Prop}
    (hMore : ∀ u, permits u → more u) (e : Entry) (hLine : e.writesOnly permits) :
    e.writesOnly more := by
  cases e with
  | update u executed => exact hMore u hLine
  | _ => trivial

/-! ## The statements of the functions -/

section Functions

variable {pl : Platform}

/-- A login gives the shift to its user. -/
theorem takeShift_writes (userid : Int) :
    Calls pl (Entry.writesOnly fun u => operatorOf u = some userid) False
      (takeShift pl userid) := by
  have hIds : Calls pl (Entry.writesOnly fun u => operatorOf u = some userid) False
      (smenaBoolIds pl 0 0) := .smenaBoolIds_of_select (fun _ _ => trivial) 0 0
  refine .bind hIds fun ids => .ite ?_ ?_
  · exact .guarded (.update fun _ => rfl) _
  · exact .guarded (.bind .systemNow fun _ => .bind .azsId fun _ => .update fun _ => rfl) _

theorem endShift_writes : Calls pl (Entry.writesOnly endsShift) False (endShift pl) := by
  refine .bind (.guarded (.bind (.smenaBoolIds_of_select (fun _ _ => trivial) _ _) fun ids => ?_) _)
    fun _ => .sendAway
  obtain ⟨status, lastId, nn⟩ := ids
  exact .bind .systemNow fun _ => .update fun _ => trivial

/-- The statements of a function of an administrator. -/
def adminWrites (func : ClientCall) (u : Mysql.Update) : Prop :=
  (func = .apiOutshift ∧ endsShift u) ∨ (func.writesSettings = true ∧ u.isSettings = true)

/-- A user only ends a shift. -/
def userWrites (func : ClientCall) (u : Mysql.Update) : Prop := func = .apiOutshift ∧ endsShift u

theorem adminCall_writes (req : Request) (func : ClientCall) :
    Calls pl (Entry.writesOnly (adminWrites func)) False (Admin.call pl req func) := by
  by_cases hFunc : func = .apiOutshift
  · subst hFunc
    exact endShift_writes.mono (Entry.WritesOnly.mono fun u hEnds => Or.inl ⟨rfl, hEnds⟩)
  cases hWrites : func.writesSettings with
  | false => exact .adminCall_of_select (fun _ _ => trivial) req hFunc hWrites
  | true =>
      have hWrite : ∀ (u : Mysql.Update) (executed : Bool), u.isSettings = true →
          (Entry.update u executed).writesOnly (adminWrites func) :=
        fun u executed hSettings => Or.inr ⟨hWrites, hSettings⟩
      have hPresent : ∀ (u : Mysql.Update) executed, u.isSettings = true →
          u.insertsNozzle = false → (Entry.update u executed).writesOnly (adminWrites func) :=
        fun u executed hSettings _ => hWrite u executed hSettings
      by_cases hSet : func = .apiSettingsSet
      · subst hSet
        exact .apiSettingsSet_of_write hPresent (fun _ _ _ executed => hWrite _ executed rfl)
          (fun _ _ => trivial) req
      · exact .adminCall_of_write hPresent (fun _ _ => trivial) req hFunc hSet

theorem userCall_writes (func : ClientCall) :
    Calls pl (Entry.writesOnly (userWrites func)) False (User.call pl func) := by
  by_cases hFunc : func = .apiOutshift
  · subst hFunc
    exact endShift_writes.mono (Entry.WritesOnly.mono fun u hEnds => ⟨rfl, hEnds⟩)
  · exact .userCall_of_select (fun _ _ => trivial) hFunc

end Functions

/-! ## Requests -/

section Requests

variable {pl : Platform} {w : World}

/-- The result of the check is the role of the cookie. -/
theorem cookieRole_of_checkCoockie {req : Request} {role : Int} {next : World}
    (hRun : checkCoockie pl req w = .ok role next) : cookieRole pl req w = some role := by
  rcases checkCoockie_role_cases pl req w with
    ⟨hError, -⟩ | ⟨hNone, hRole⟩ | ⟨token, bare, payload, -, hEnd, hRole⟩
  · rw [hError] at hRun
    cases hRun
  · rw [hNone] at hRun
    obtain ⟨rfl, -⟩ := EStateM.Result.ok.inj hRun
    exact hRole
  · rw [hEnd] at hRun
    obtain ⟨rfl, -⟩ := EStateM.Result.ok.inj hRun
    exact hRole

/-- A request only sends statements that it may send. -/
theorem permitted_serve {route : Route} {req : Request} (hUrl : req.url = route.url)
    (hOpen : w.response.completed = false) :
    LogGrows (Entry.writesOnly (Permitted pl w req route)) w (endState (serve pl route req) w) := by
  have hFramed : ∀ {allowed : Entry → Prop} (v next : World),
      LogGrows (Entry.writesOnly (Permitted pl w req route)) w v →
      (∀ e, allowed e → e.writesOnly (Permitted pl w req route)) → Framed allowed v next →
      LogGrows (Entry.writesOnly (Permitted pl w req route)) w next :=
    fun v next hGrows hAllowed hFrame => hGrows.trans (hFrame.log.mono hAllowed)
  have hSecret : ∀ v, LogGrows (Entry.writesOnly (Permitted pl w req route)) v
      (afterSecret pl v) := fun v => by
    obtain ⟨more, hLog, hMore⟩ := log_afterSecret pl v
    refine ⟨more, hLog, fun e hMem => ?_⟩
    obtain ⟨drawn, returned, rfl⟩ := hMore e hMem
    trivial
  have hFound : ∀ func, route = .client func → findFunc req.url = some func := fun func hRoute => by
    rw [hUrl, hRoute]
    exact findFunc_url func
  apply endState_serve_of_reads (LogGrows (Entry.writesOnly (Permitted pl w req route)) w) route
    req (.of_eq rfl) hOpen
  · exact fun hReads => hReads.keeps
      (fun v next hGrows => hFramed v next hGrows Entry.writesOnly_of_select) fun _ _ _ _ => trivial
  · exact fun v bare hGrows => (hGrows.trans (hSecret v)).trans (.of_line rfl trivial)
  · intro v info hGrows
    refine hGrows.trans ?_
    unfold connectAsync endState
    rw [get_bind_run, ite_run]
    split_ifs
    · exact .of_line rfl trivial
    · exact .of_eq rfl
  · -- a login
    rintro rfl
    apply endState_authPost_of_take (LogGrows (Entry.writesOnly (Permitted pl w req .auth)) w)
      (fun userid v => (∃ con, LoginAccepted pl w req.body con userid) ∧
        LogGrows (Entry.writesOnly (Permitted pl w req .auth)) w v) (.of_eq rfl)
    · exact fun v next hGrows => hFramed v next hGrows Entry.writesOnly_of_select
    · intro con userid hAccepted
      exact ⟨⟨con, hAccepted⟩, .trans (w := w.popSql.observed (.select (passwordSql userid) true))
        (.of_line rfl trivial) (.of_line rfl trivial)⟩
    · intro userid
      refine (takeShift_writes userid).keeps ?_ fun _ _ _ _ => trivial
      rintro v next ⟨⟨con, hAccepted⟩, hGrows⟩ hFrame
      exact ⟨⟨con, hAccepted⟩, hFramed v next hGrows
        (Entry.WritesOnly.mono fun u hOperator => .login hAccepted hOperator) hFrame⟩
    · exact fun userid v hSince => hSince.2
    · exact fun userid v hSince => (hSince.2.trans (hSecret v)).trans (.of_line rfl trivial)
  · -- the session of an administrator
    intro func next hRoute hIsconn hRun hNext
    have hRole := cookieRole_of_checkCoockie hRun
    rw [Admin.controller, hFound func hRoute]
    have hCall : Keeps (LogGrows (Entry.writesOnly (Permitted pl w req route)) w) (fun _ => True)
        (Admin.call pl req func) := by
      refine (adminCall_writes req func).keeps (fun v after hGrows hFrame => ?_) fun _ _ _ _ => trivial
      refine hFramed v after hGrows (Entry.WritesOnly.mono fun u hWrites => ?_) hFrame
      rw [hRoute]
      rcases hWrites with ⟨rfl, hEnds⟩ | ⟨hWrites, hSettings⟩
      · exact .close hIsconn hRole (Or.inr rfl) hEnds
      · exact .settings hIsconn hRole hWrites hSettings
    exact hCall.inv_endState hNext
  · -- the session of a user
    intro func next hRoute hIsconn hRun hNext
    have hRole := cookieRole_of_checkCoockie hRun
    rw [User.controller, hFound func hRoute]
    have hCall : Keeps (LogGrows (Entry.writesOnly (Permitted pl w req route)) w) (fun _ => True)
        (User.call pl func) := by
      refine (userCall_writes func).keeps (fun v after hGrows hFrame => ?_) fun _ _ _ _ => trivial
      refine hFramed v after hGrows (Entry.WritesOnly.mono fun u hWrites => ?_) hFrame
      obtain ⟨rfl, hEnds⟩ := hWrites
      rw [hRoute]
      exact .close hIsconn hRole (Or.inl rfl) hEnds
    exact hCall.inv_endState hNext

end Requests

/-! ## Runs -/

/-- Every statement of an event that changes a database is sent by a request that may
send it. -/
def WritesPermitted (pl : Platform) (s : Process) (e : Event) : Prop :=
  ∀ u executed, .update u executed ∈ (s.endOf pl e).linesSince s.world →
    ∃ route cookie body env, e = .request route cookie body env ∧
      Permitted pl (s.world.received env) ⟨route.url, cookie, body⟩ route u

/-- A user logged in less than 100 minutes before a time, and the secret has not been
regenerated since. -/
def SignedIn (log : List Entry) (now : TimePoint) : Prop :=
  ∃ before userid admin time after, log = before ++ .login userid admin time :: after ∧
    (∀ e ∈ after, e.isLasting) ∧ time.ns ≤ now.ns ∧ now.ns < time.ns + 100 * 60 * 10 ^ 9

/-- Every statement of the event that ends a shift is preceded by such a login. -/
def ShiftGuarded (pl : Platform) (s : Process) (e : Event) : Prop :=
  ∀ env ∈ e.env?, ∀ u executed, endsShift u →
    .update u executed ∈ (s.endOf pl e).linesSince s.world → SignedIn s.world.log env.now

section Runs

variable {pl : Platform} {s : Process} {e : Event}

theorem writesPermitted_of_state (pl : Platform) (s : Process) (e : Event) :
    WritesPermitted pl s e := by
  intro u executed hLine
  -- only requests send such statements
  have hSilent : ¬ LogGrows Entry.isConnectLine s.world (s.endOf pl e) := fun hGrows =>
    hGrows.mem_linesSince hLine
  cases e with
  | start env => exact absurd (lines_startProcess pl (s.world.under env)) hSilent
  | lock i => exact absurd (.of_eq rfl) hSilent
  | work env =>
      unfold Process.endOf at hSilent
      cases hRunning : s.running with
      | none =>
          rw [hRunning] at hSilent
          exact absurd (.of_eq rfl) hSilent
      | some worker =>
          rw [hRunning] at hSilent
          exact absurd (lines_work pl worker.pc worker.info (s.world.under env)) hSilent
  | request route cookie body env =>
      have hGrows : LogGrows (Entry.writesOnly
          (Permitted pl (s.world.received env) ⟨route.url, cookie, body⟩ route))
          (s.world.received env) (endState (serve pl route ⟨route.url, cookie, body⟩)
            (s.world.received env)) := permitted_serve rfl rfl
      have hPermitted := hGrows.mem_linesSince hLine
      exact ⟨route, cookie, body, env, rfl, hPermitted⟩

/-- Over every run, from any state, every statement that changes a database
belongs to a login that was accepted, to the session that ends a shift, or to the session of
an administrator in one of the three functions that change the settings. -/
theorem writes_permitted_in_runs (pl : Platform) (start : Process) (events : List Event) :
    StepsMeet (Process.step pl) (WritesPermitted pl) start events := by
  have hAny : StepsMeet (Process.step pl) (fun _ _ => True) start events :=
    stepsMeet_of_mem (fun _ _ => trivial) start
  exact stepsMeet_mono (fun s e _ => writesPermitted_of_state pl s e) hAny

/-- What a session does behind the check of its cookie is the rest of the request. -/
theorem endOf_of_checkCoockie {func : ClientCall} {cookie body : Bytes} {env : Env} {role : Int}
    {after : World} (hIsconn : s.world.azsDb.isconn = true)
    (hRun : checkCoockie pl ⟨(Route.client func).url, cookie, body⟩ (s.world.received env) =
      .ok role after) :
    LogGrows Entry.isDatabaseLine after
      (s.endOf pl (.request (.client func) cookie body env)) := by
  have hEnd : s.endOf pl (.request (.client func) cookie body env) =
      endState (if role = 1 then Admin.controller pl ⟨(Route.client func).url, cookie, body⟩
        else if role = 0 then User.controller pl ⟨(Route.client func).url, cookie, body⟩
        else sendAway) after := by
    have hOpen : (s.world.received env).azsDb.isconn = true := hIsconn
    rw [Process.endOf, endState, serve_client_of_connected func _ hOpen, session, bind_of_ok hRun]
    rfl
  have hCalls : Calls pl Entry.isDatabaseLine False
      (if role = 1 then Admin.controller pl ⟨(Route.client func).url, cookie, body⟩
        else if role = 0 then User.controller pl ⟨(Route.client func).url, cookie, body⟩
        else sendAway) :=
    .ite (.adminController _) (.ite (.ofShiftLines (.userController _)) .sendAway)
  rw [hEnd]
  exact ((hCalls.framed).inv_endState (.refl _ after)).log

/-- An event of a run that meets the condition ends a shift only behind a login. -/
theorem Guarded.shiftGuarded
    (hDecode : ∀ key claims, pl.jwt.decode (pl.jwt.sign key (payloadText claims)) =
      some (payloadText claims))
    (hZone : pl.zone.Constant) (hGuarded : Guarded pl s) (hIdeal : IdealEvent pl s e) :
    ShiftGuarded pl s e := by
  intro env hEnv u executed hEnds hLine
  obtain ⟨route, cookie, body, start, rfl, hPermitted⟩ :=
    writesPermitted_of_state pl s e u executed hLine
  obtain rfl : start = env := Option.some.inj hEnv
  obtain ⟨hClock, hStep⟩ := hIdeal start rfl
  -- neither a login nor a change of the settings ends a shift
  cases hPermitted with
  | login hAccepted hOperator =>
      cases u with
      | smenaClose timeNow lastId => cases hOperator
      | _ => exact hEnds.elim
  | settings hIsconn hRole hWrites hSettings =>
      cases u with
      | smenaClose timeNow lastId => cases hSettings
      | _ => exact hEnds.elim
  | @close role _ hIsconn hRole hKnown _ =>
      obtain ⟨after, hRun⟩ := checkCoockie_of_cookieRole hRole
      have hGrows : LogGrows Entry.isDatabaseLine after
          (s.endOf pl (.request (.client .apiOutshift) cookie body start)) :=
        endOf_of_checkCoockie hIsconn hRun
      have hFresh := hGrows.nodup hStep.distinct
      have hSessions : SessionsHave (IssuedAtLogin pl) (s.world.received start) :=
        (hGuarded.inRequest hStep.sqlite hClock).sessions (nodup_before hRun hFresh)
      have hSession : role ≠ -1 := by
        rcases hKnown with rfl | rfl
        · decide
        · decide
      obtain ⟨userid, time, ⟨before, later, hLog, hLater, hTime⟩, hPayload⟩ :=
        login_of_checkCoockie hDecode hSessions hStep.sqlite hRun hSession hFresh
          fun key token hMem => hStep.unforged key token (hGrows.mem_linesSince_of_mem hMem)
      refine ⟨before, userid, _, time, later, hLog, hLater, hTime, ?_⟩
      have hNow : (s.world.received start).env.now = start.now := rfl
      rw [hNow, payloadRole_sessionPayload hZone] at hPayload
      by_contra hOld
      rw [if_neg (by omega)] at hPayload
      exact hSession hPayload.symm

end Runs

/-- The first administrator connects the station, logs in, and ends his shift. -/
def chiefLeaves : List Event :=
  chiefStart ++ [posted (.client .apiOutshift) chiefCookie deletion 2]

end Server
end AzsServer
