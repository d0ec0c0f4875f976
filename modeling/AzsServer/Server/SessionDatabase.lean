import AzsServer.Library.Runs
import AzsServer.Local.SavedConnection
import AzsServer.Server.Logins
import AzsServer.Server.Secrets

/-!
# The database of a session

The secret of the sessions is regenerated when `connect` comes to data that differ from
`last_connect_info`.  So a session belongs to one database as long as
`last_connect_info` tells for which database the secret was made: a start of the
process must read the data that the last process connected with, and nobody must log in
over the connection of an attempt that failed behind `driver->connect`.
-/

namespace AzsServer
namespace Server

open Core Library Local

/-- What a run of sessions is made of. -/
inductive AccessEvent where
  | start
  | connect (info : MysqlConnInfo)
  | login (req : Request)
  | check (req : Request)

/-- The program of an event. -/
def AccessEvent.run (pl : Platform) : AccessEvent → Prog Unit
  | .start => startProcess pl
  | .connect info => discard (Server.connect pl info)
  | .login req => authPost pl req
  | .check req => discard (checkCoockie pl req)

/-- One event under what the environment delivers for it. -/
def accessStep (pl : Platform) (w : World) (event : AccessEvent × Env) : Option World :=
  goesOn (event.1.run pl (w.under event.2))

/-- The state in which an event ends. -/
def accessEnd (pl : Platform) (w : World) (event : AccessEvent × Env) : World :=
  endState (event.1.run pl) (w.under event.2)

/-- SQLite, the drawn secrets and the tokens behave ideally. -/
def IdealAccess (pl : Platform) (w : World) (event : AccessEvent × Env) : Prop :=
  IdealStep event.2 w (accessEnd pl w event)

/-- While `isconn` is true, a token that the event accepts was issued over the connection
data in use. -/
def SessionHere (pl : Platform) (w : World) (event : AccessEvent × Env) : Prop :=
  w.azsDb.isconn = true → ∀ key token,
    .verified key token true ∈ (accessEnd pl w event).linesSince w →
      ∀ inUse ∈ issuedOver key token w.log, inUse = w.azsDb.inUse

instance (pl : Platform) (w : World) (event : AccessEvent × Env) :
    Decidable (IdealAccess pl w event) :=
  inferInstanceAs (Decidable (IdealStep ..))

instance (pl : Platform) (w : World) (event : AccessEvent × Env) :
    Decidable (SessionHere pl w event) :=
  decidable_of_iff (w.azsDb.isconn = true → ∀ e ∈ (accessEnd pl w event).linesSince w,
      e.ifAccepted fun key token => ∀ inUse ∈ issuedOver key token w.log, inUse = w.azsDb.inUse)
    (imp_congr_right fun _ => forall_accepted_iff)

/-- The condition on an event.  A start reads the data that the secret was made for, or
no session is alive; an accepted login goes over a connection with these data; and the
statement that saves connection data leaves the table `jwt` alone. -/
def SecretFollows (pl : Platform) (w : World) (event : AccessEvent × Env) : Prop :=
  match event.1 with
  | .start =>
      (w.savedInfo = w.azsDb.lastConnectInfo ∨
          ∀ key token inUse, ¬ LiveSession w key token inUse) ∧
        StartSparesJwt pl w
  | .connect info => SparesJwt pl.sqlite info w.ld.data.idLast
  | .login req => ∀ con userid, LoginAccepted pl (w.under event.2) req.body con userid →
      con.info = w.azsDb.lastConnectInfo
  | .check _ => True

/-- The session was issued over `last_connect_info`. -/
def IssuedOverLast : SessionProperty := fun w _ _ inUse =>
  inUse = some w.azsDb.lastConnectInfo

theorem lasting_issuedOverLast : Lasting IssuedOverLast := by
  intro w next hLast _ _ key token inUse hIssued
  show inUse = some next.azsDb.lastConnectInfo
  rw [hLast]
  exact hIssued

/-- While `isconn` is true, the connection leads to `last_connect_info`. -/
def ConnectedToLast (w : World) : Prop :=
  w.azsDb.isconn = true → w.azsDb.inUse = some w.azsDb.lastConnectInfo

/-- The invariant: the living sessions belong to `last_connect_info`, and so does the
connection while `isconn` is true. -/
structure Owned (w : World) : Prop where
  sessions : SessionsHave IssuedOverLast w
  connected : ConnectedToLast w

section Steps

variable {pl : Platform} {w next : World}

theorem ConnectedToLast.framed (hConnected : ConnectedToLast w)
    (hFramed : Framed Entry.isShiftLine w next) : ConnectedToLast next := by
  intro hIsconn
  have hInUse := hConnected (hFramed.isconn hIsconn)
  rw [hFramed.azsDb]
  exact hInUse

theorem ConnectedToLast.afterSecret (pl : Platform) (hConnected : ConnectedToLast w) :
    ConnectedToLast (afterSecret pl w) := by
  unfold ConnectedToLast
  rw [azsDb_afterSecret]
  exact hConnected

theorem ConnectedToLast.checkCoockie (req : Request) (hConnected : ConnectedToLast w) :
    ConnectedToLast (endState (checkCoockie pl req) w) := by
  rcases checkCoockie_cases pl req w with hRun | hRun | ⟨token, bare, payload, -, hRun⟩
  · rw [endState, hRun]
    exact hConnected
  · rw [endState, hRun]
    exact hConnected
  · rw [endState, hRun]
    exact hConnected.afterSecret pl

theorem ConnectedToLast.authPost (req : Request) (hConnected : ConnectedToLast w) :
    ConnectedToLast (endState (authPost pl req) w) := by
  apply endState_authPost ConnectedToLast (fun _ => ConnectedToLast) hConnected
  · exact fun v next hConnected hFramed => hConnected.framed hFramed
  · exact fun con userid hAccepted => hConnected
  · exact fun userid v next hConnected hFramed => hConnected.framed hFramed
  · exact fun userid v hConnected => hConnected
  · exact fun userid v hConnected => hConnected.afterSecret pl

/-- A connection that is left with `isconn` true leads to the data that were saved. -/
theorem connectedToLast_connect (pl : Platform) (info : MysqlConnInfo) (w : World) :
    ConnectedToLast (endState (connect pl info) w) := by
  by_cases hDriver : DriverWorks w.env
  · obtain ⟨valid, hValid⟩ := Option.ne_none_iff_exists'.mp hDriver.2.2
    rw [endState, connect_run_of_isValid pl info hDriver.1 hDriver.2.1 hValid]
    have hInUse : (saved pl info valid w).azsDb.inUse = some info := by
      rw [AzsDatabase.inUse, saved_con]
      rfl
    intro _
    show (afterStation ⟨info, true⟩ (saved pl info valid w)).azsDb.inUse =
      some (afterStation ⟨info, true⟩ (saved pl info valid w)).azsDb.lastConnectInfo
    rw [AzsDatabase.inUse, con_afterStation, lastConnectInfo_afterStation]
    exact hInUse
  · obtain ⟨con, hRun⟩ := connect_run_of_not_driverWorks pl info hDriver
    rw [endState, hRun]
    exact fun hFalse => by cases hFalse

/-- A login over `last_connect_info` issues a session for it. -/
theorem inEvent_authPost {req : Request} (hIn : InEvent IssuedOverLast w)
    (hLogin : ∀ con userid, LoginAccepted pl w req.body con userid →
      con.info = w.azsDb.lastConnectInfo) :
    InEvent IssuedOverLast (endState (authPost pl req) w) := by
  apply hIn.authPost (fun _ v => v.azsDb.inUse = some v.azsDb.lastConnectInfo)
    lasting_issuedOverLast
  · intro con userid hAccepted
    show w.azsDb.con.map (·.info) = some w.azsDb.lastConnectInfo
    rw [hAccepted.con_eq, ← hLogin con userid hAccepted]
    rfl
  · intro userid v next hInUse hFramed
    rw [hFramed.azsDb]
    exact hInUse
  · intro userid v key hInUse
    show v.azsDb.inUse = some (afterSecret pl v).azsDb.lastConnectInfo
    rw [azsDb_afterSecret]
    exact hInUse

end Steps

/-! ## Verified tokens -/

/-- Lines of anything but the verification of a token. -/
def Entry.isUnverified : Entry → Prop
  | .verified _ _ _ => False
  | _ => True

section Verified

variable {pl : Platform} {w : World}

theorem Entry.IsShiftLine.isUnverified {e : Entry} (hLine : e.isShiftLine) : e.isUnverified := by
  cases e with
  | select sql executed => trivial
  | update u executed => trivial
  | _ => exact hLine.elim

/-- Reading the secret verifies nothing. -/
theorem unverified_afterSecret (pl : Platform) (w : World) :
    LogGrows Entry.isUnverified w (afterSecret pl w) := by
  obtain ⟨more, hLog, hMore⟩ := log_afterSecret pl w
  refine ⟨more, hLog, fun e hMem => ?_⟩
  obtain ⟨drawn, returned, rfl⟩ := hMore e hMem
  trivial

theorem Entry.IsConnectLine.isUnverified {e : Entry} (hLine : e.isConnectLine) :
    e.isUnverified := by
  cases e with
  | select sql executed => trivial
  | generate reginerate drawn returned => trivial
  | _ => exact hLine.elim

/-- Logging in verifies nothing. -/
theorem unverified_authPost (pl : Platform) (req : Request) (w : World) :
    LogGrows Entry.isUnverified w (endState (authPost pl req) w) := by
  apply endState_authPost (LogGrows Entry.isUnverified w)
    (fun _ => LogGrows Entry.isUnverified w) (.of_eq rfl)
  · exact fun v next hGrows hFramed =>
      hGrows.trans (hFramed.log.mono fun _ => Entry.IsShiftLine.isUnverified)
  · intro con userid _
    exact .trans (w := w.popSql.observed (.select (passwordSql userid) true))
      (.of_line rfl trivial) (.of_line rfl trivial)
  · exact fun userid v next hGrows hFramed =>
      hGrows.trans (hFramed.log.mono fun _ => Entry.IsShiftLine.isUnverified)
  · exact fun userid v hGrows => hGrows
  · intro userid v hGrows
    exact (hGrows.trans (unverified_afterSecret pl v)).trans (.of_line rfl trivial)

/-- The cookie check verifies under the secret of the table. -/
theorem mem_lines_checkCoockie {req : Request} {key token : Bytes}
    (hMem : .verified key token true ∈ (endState (checkCoockie pl req) w).linesSince w) :
    key = (afterSecret pl w).ld.data.secretjwt ∧
      ∃ bare, endState (checkCoockie pl req) w = afterVerify pl bare w := by
  have hNone : ∀ e, e ∉ w.linesSince w := fun e hLine => by
    rw [World.linesSince, List.drop_length] at hLine
    cases hLine
  rcases checkCoockie_cases pl req w with hRun | hRun | ⟨_, bare, payload, -, hRun⟩
  · rw [endState, hRun] at hMem
    exact absurd hMem (hNone _)
  · rw [endState, hRun] at hMem
    exact absurd hMem (hNone _)
  · have hEnd : endState (checkCoockie pl req) w = afterVerify pl bare w := by
      rw [endState, hRun]
    obtain ⟨more, hLog, hMore⟩ := log_afterSecret pl w
    have hVerifyLog : (afterVerify pl bare w).log = w.log ++ (more ++ [.verified
        (afterSecret pl w).ld.data.secretjwt bare
        (pl.jwt.verify (afterSecret pl w).ld.data.secretjwt bare)]) := by
      rw [← List.append_assoc, ← hLog]
      rfl
    rw [hEnd, World.linesSince, hVerifyLog, List.drop_left] at hMem
    rcases List.mem_append.mp hMem with hOld | hNew
    · obtain ⟨drawn, returned, hLine⟩ := hMore _ hOld
      cases hLine
    · exact ⟨(Entry.verified.inj (List.mem_singleton.mp hNew)).1, bare, hEnd⟩

end Verified

/-! ## Runs -/

section Runs

variable {pl : Platform} {w next : World} {event : AccessEvent × Env}

/-- At the beginning of an event. -/
theorem Owned.inEvent (hOwned : Owned w) {env : Env} (hWorks : env.SqliteWorks) :
    InEvent IssuedOverLast (w.under env) :=
  ⟨hWorks, fun _ => ⟨hOwned.sessions.kept.quiet rfl (Or.inr rfl) (.of_eq rfl),
    fun key token inUse hLive => hOwned.sessions.live key token inUse ⟨hLive.row, hLive.signed⟩⟩⟩

/-- A token that is accepted while the invariant holds belongs to the data in use. -/
theorem Owned.sessionHere (hOwned : Owned w) (hIdeal : IdealAccess pl w event) :
    SessionHere pl w event := by
  obtain ⟨call, env⟩ := event
  intro hIsconn key token hVerified inUse hIssued
  have hNever : ¬ LogGrows Entry.isUnverified (w.under env) (accessEnd pl w (call, env)) :=
    fun hGrows => hGrows.mem_linesSince hVerified
  cases call with
  | start =>
      exact absurd ((lines_startProcess pl (w.under env)).mono
        fun _ => Entry.IsConnectLine.isUnverified) hNever
  | connect info =>
      rw [accessEnd, AccessEvent.run, endState_discard_eq] at hNever
      exact absurd ((lines_connect pl info _).mono
        fun _ => Entry.IsConnectLine.isUnverified) hNever
  | login req => exact absurd (unverified_authPost pl req _) hNever
  | check req =>
      have hEnd : accessEnd pl w (.check req, env) = endState (checkCoockie pl req) (w.under env) :=
        endState_discard_eq _ _
      have hFresh : (drawnSecrets (endState (checkCoockie pl req) (w.under env)).log).Nodup := by
        rw [← hEnd]
        exact hIdeal.distinct
      have hMem : .verified key token true ∈
          (endState (checkCoockie pl req) (w.under env)).linesSince (w.under env) := by
        rw [← hEnd]
        exact hVerified
      obtain ⟨rfl, bare, hVerify⟩ := mem_lines_checkCoockie hMem
      have hQuiet : LogGrows Entry.isQuiet (afterSecret pl (w.under env))
          (afterVerify pl bare (w.under env)) := .of_line rfl trivial
      rw [hVerify, hQuiet.drawnSecrets_eq] at hFresh
      have hKept : SecretKept (w.under env) :=
        hOwned.sessions.kept.quiet rfl (Or.inr rfl) (.of_eq rfl)
      have hLive := liveSession_of_handedOut hKept hIdeal.sqlite hFresh (mem_issuedOver.mp hIssued)
      rw [hOwned.connected hIsconn]
      exact hOwned.sessions.live _ _ _ ⟨hLive.row, hLive.signed⟩

/-- Every event that meets the condition keeps the invariant. -/
theorem Owned.step (hOwned : Owned w) (hIdeal : IdealAccess pl w event)
    (hFollows : SecretFollows pl w event) (hStep : accessStep pl w event = some next) :
    Owned next := by
  obtain ⟨call, env⟩ := event
  have hEnd : accessEnd pl w (call, env) = next := endState_of_goesOn hStep
  have hFresh := hIdeal.distinct
  have hIn := hOwned.inEvent hIdeal.sqlite
  have hConnected : ConnectedToLast (w.under env) := hOwned.connected
  rw [← hEnd]
  cases call with
  | start =>
      refine ⟨(hIn.startProcess lasting_issuedOverLast ?_ hFollows.2).sessions hFresh, ?_⟩
      · intro key token inUse hLive hIssued
        show inUse = some (renewed (w.under env)).azsDb.lastConnectInfo
        rw [lastConnectInfo_renewed hIn.sqlite]
        rcases hFollows.1 with hSame | hNone
        · show inUse = some w.savedInfo
          rw [hSame]
          exact hIssued
        · exact absurd ⟨hLive.row, hLive.signed⟩ (hNone key token inUse)
      · rw [accessEnd, AccessEvent.run, startProcess_endState]
        exact connectedToLast_connect pl _ _
  | connect info =>
      rw [accessEnd, AccessEvent.run, endState_discard_eq] at hFresh ⊢
      exact ⟨(hIn.connect lasting_issuedOverLast hFollows).sessions hFresh,
        connectedToLast_connect pl info _⟩
  | login req =>
      exact ⟨(inEvent_authPost hIn hFollows).sessions hFresh, hConnected.authPost req⟩
  | check req =>
      rw [accessEnd, AccessEvent.run, endState_discard_eq] at hFresh ⊢
      exact ⟨(hIn.checkCoockie lasting_issuedOverLast).sessions hFresh,
        hConnected.checkCoockie req⟩

theorem owned_freshOver (mysql : Address → Mysql.Tables) : Owned (.freshOver mysql) where
  sessions :=
    ⟨⟨Or.inl rfl, Or.inl rfl, fun _ hMem => (by cases hMem), fun _ _ _ hMem => by cases hMem⟩,
      fun _ _ _ hLive => by cases hLive.signed⟩
  connected hFalse := by cases hFalse

/-- In a run from an empty local database whose events all meet the condition, every
session that is accepted while `isconn` is true belongs to the data in use. -/
theorem sessions_stay_with_database (pl : Platform) (mysql : Address → Mysql.Tables)
    (events : List (AccessEvent × Env))
    (hIdeal : StepsMeet (accessStep pl) (IdealAccess pl) (.freshOver mysql) events)
    (hFollows : StepsMeet (accessStep pl) (SecretFollows pl) (.freshOver mysql) events) :
    StepsMeet (accessStep pl) (SessionHere pl) (.freshOver mysql) events := by
  refine stepsMeet_of_invariant ?_ ?_ (owned_freshOver mysql) (stepsMeet_and hIdeal hFollows)
  · intro w event next (hOwned : Owned w) hMeet hStep
    exact hOwned.step hMeet.1 hMeet.2 hStep
  · intro w event (hOwned : Owned w) hMeet
    exact hOwned.sessionHere hMeet.1

end Runs

/-! ## Two runs -/

/-- A database in which user 7 is registered. -/
def stationTables : Mysql.Tables :=
  { locConst := [⟨ascii "cnst_ID_Station", ascii "3"⟩], locUsers := [⟨7, ascii "pw", 3⟩] }

/-- The login of user 7. -/
def clerkLogin : AccessEvent := .login ⟨ascii "/auth", [], clerkBody⟩

/-- A request with the session of user 7 under the secret of one letter. -/
def clerkCheck (letter : Fin 36) : AccessEvent :=
  .check ⟨ascii "/", ascii "refresh_token=" ++
    sessionToken clerkPlatform (generateSecretKey 15 fun _ => letter) .epoch 7 false, []⟩

/-- The second connection of the first process adds a row, and the next process comes back
to the first database, where the session of the second one is accepted. -/
theorem session_accepted_in_other_database :
    StepsMeet (accessStep clerkPlatform) (IdealAccess clerkPlatform)
        (.freshOver fun _ => stationTables)
        [(.start, unreachable), (.connect firstInfo, drawing 0), (.connect secondInfo, drawing 1),
          (clerkLogin, drawing 2), (.start, drawing 3), (clerkCheck 1, drawing 4)] ∧
      ¬ StepsMeet (accessStep clerkPlatform) (SessionHere clerkPlatform)
        (.freshOver fun _ => stationTables)
        [(.start, unreachable), (.connect firstInfo, drawing 0), (.connect secondInfo, drawing 1),
          (clerkLogin, drawing 2), (.start, drawing 3), (clerkCheck 1, drawing 4)] := by
  constructor
  · decide +kernel
  · decide +kernel

/-- The session of the first database is accepted there. -/
theorem session_accepted_in_its_database :
    StepsMeet (accessStep clerkPlatform) (SessionHere clerkPlatform)
      (.freshOver fun _ => stationTables)
      [(.start, unreachable), (.connect firstInfo, drawing 0), (clerkLogin, drawing 1),
        (clerkCheck 0, drawing 2)] := by
  have hConnected : (runSteps (accessStep clerkPlatform) (.freshOver fun _ => stationTables)
      [(.start, unreachable), (.connect firstInfo, drawing 0)]).map
        (fun w => (w.azsDb.con, w.azsDb.lastConnectInfo)) =
          some (some ⟨firstInfo, true⟩, firstInfo) := by
    decide +kernel
  apply sessions_stay_with_database
  · decide +kernel
  refine ⟨⟨Or.inl rfl, sparesJwt_of_unquoted ?_ _⟩, fun started hStart => ?_⟩
  · exact ⟨by decide, by decide, by decide, by decide, by decide⟩
  refine ⟨sparesJwt_of_unquoted firstInfo_unquoted _, fun connected hConnect => ?_⟩
  refine ⟨fun con userid hAccepted => ?_, fun _ _ => ⟨trivial, fun _ _ => trivial⟩⟩
  have hRun : runSteps (accessStep clerkPlatform) (.freshOver fun _ => stationTables)
      [(.start, unreachable), (.connect firstInfo, drawing 0)] = some connected :=
    runSteps_cons_eq_some_iff.mpr ⟨started, hStart,
      runSteps_cons_eq_some_iff.mpr ⟨connected, hConnect, rfl⟩⟩
  rw [hRun] at hConnected
  obtain ⟨hCon, hLast⟩ := Prod.mk.inj (Option.some.inj hConnected)
  have hSame : connected.azsDb.con = some con := hAccepted.con_eq
  rw [hCon] at hSame
  cases hSame
  exact hLast.symm

end Server
end AzsServer
