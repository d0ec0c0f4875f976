import AzsServer.Server.PublishedState
import AzsServer.Server.SettingsGuard
import AzsServer.Server.Statements

/-!
# What a request does to the databases

A request consists of programs of statements that select or change settings, of the three
functions that insert rows or write shifts, `set_Trk`, `takeShift` and `smena_close`, and
of steps that touch no database: tokens, the cookie check, the start of a connect attempt.
A property of the databases is kept by every request, and by every event, if these keep it.
-/

namespace AzsServer
namespace Server

open Core Library Local

/-- The lines of a program that writes no shift and inserts no row. -/
def Entry.insertsNothing : Entry → Prop
  | .select _ _ => True
  | .update u _ => u.isSettings = true ∧ u.insertsNozzle = false
  | .login _ _ _ => True
  | _ => False

theorem Entry.insertsNothing_of_check (e : Entry) (hCheck : e.isCheckLine) : e.insertsNothing := by
  cases e with
  | select sql executed => trivial
  | login userid admin now => trivial
  | _ => exact hCheck.elim

/-! ## The rule by the pieces of a request -/

section Pieces

variable {pl : Platform} {inv : World → Prop}

theorem keeps_behind {middleware handler : Prog Unit}
    (hMiddleware : Keeps inv (fun _ => True) middleware)
    (hHandler : Keeps inv (fun _ => True) handler) :
    Keeps inv (fun _ => True) (behind middleware handler) :=
  .bind hMiddleware fun _ => .bind .get fun _ => .ite hHandler (.pure _)

/-- What the pieces of a request keep, every request keeps. -/
structure KeptByPieces (pl : Platform) (inv : World → Prop) : Prop where
  calls : ∀ {α : Type} {offRow : Prop} {m : Prog α}, Calls pl Entry.insertsNothing offRow m →
    Keeps inv (fun _ => True) m
  setTrk : ∀ trk, Keeps inv (fun _ => True) (setTrk pl trk)
  takeShift : ∀ userid, Keeps inv (fun _ => True) (takeShift pl userid)
  smenaClose : Keeps inv (fun _ => True) (smenaClose pl)
  issueToken : ∀ userid admin, Keeps inv (fun _ => True) (issueToken pl userid admin)
  verify : ∀ w bare, inv w → inv (afterVerify pl bare w)
  connectAsync : ∀ info, Keeps inv (fun _ => True) (connectAsync info)

variable (hPieces : KeptByPieces pl inv)

include hPieces

theorem KeptByPieces.reply {α : Type} {m : Prog α} (hSilent : Calls pl (fun _ => False) False m) :
    Keeps inv (fun _ => True) m :=
  hPieces.calls (hSilent.mono fun _ hFalse => hFalse.elim)

theorem KeptByPieces.write {α : Type} {m : Prog α}
    (hWrite : Calls pl Entry.insertsNothing False m) : Keeps inv (fun _ => True) m :=
  hPieces.calls hWrite

theorem KeptByPieces.authPost (req : Request) : Keeps inv (fun _ => True) (authPost pl req) := by
  apply keeps_authPost
  · exact fun hSilent => hPieces.reply hSilent
  · intro userid password
    have hCheck : Calls pl Entry.isCheckLine True (authCheck userid password false) :=
      .authCheck userid password false
    exact hPieces.calls (hCheck.mono Entry.insertsNothing_of_check)
  · exact hPieces.takeShift
  · exact hPieces.issueToken

theorem KeptByPieces.endShift : Keeps inv (fun _ => True) (endShift pl) :=
  .bind hPieces.smenaClose fun _ => hPieces.reply .sendAway

theorem KeptByPieces.apiSettingsSet (req : Request) :
    Keeps inv (fun _ => True) (Admin.apiSettingsSet pl req) :=
  .bind (hPieces.reply (.modifyResponse _)) fun _ => .bind (hPieces.reply (.orThrow _)) fun _ =>
    .bind (hPieces.reply (.orThrow _)) fun _ => .ite (hPieces.reply (.replyStatus _)) <|
      .bind (hPieces.reply (.orThrow _)) fun _ => .ite (hPieces.reply (.replyStatus _)) <|
        .bind (hPieces.reply (.orThrow _)) fun _ => .ite (hPieces.reply (.replyStatus _)) <|
          .bind (.forM (fun tovar => hPieces.write (Calls.setTovar_of_write
            (fun _ _ hSettings hInsert => ⟨hSettings, hInsert⟩) tovar)) _) fun _ =>
            .bind (.forM (fun tank => hPieces.write (Calls.setTank_of_write
              (fun _ _ hSettings hInsert => ⟨hSettings, hInsert⟩) tank)) _) fun _ =>
              .bind (.forM hPieces.setTrk _) fun _ => hPieces.reply (.replyStatus _)

theorem KeptByPieces.adminController (req : Request) :
    Keeps inv (fun _ => True) (Admin.controller pl req) := by
  unfold Admin.controller
  cases findFunc req.url with
  | none => exact .pure PUnit.unit
  | some func =>
      by_cases hFunc : func = .apiOutshift
      · subst hFunc
        exact hPieces.endShift
      by_cases hSet : func = .apiSettingsSet
      · subst hSet
        exact hPieces.apiSettingsSet req
      · exact hPieces.calls (Calls.adminCall_of_write
          (fun _ _ hSettings hInsert => ⟨hSettings, hInsert⟩) (fun _ _ => trivial) req hFunc hSet)

theorem KeptByPieces.userController (req : Request) :
    Keeps inv (fun _ => True) (User.controller pl req) := by
  unfold User.controller
  cases findFunc req.url with
  | none => exact .pure PUnit.unit
  | some func =>
      by_cases hFunc : func = .apiOutshift
      · subst hFunc
        exact hPieces.endShift
      · exact hPieces.calls (Calls.userCall_of_select (fun _ _ => trivial) hFunc)

theorem KeptByPieces.session (req : Request) : Keeps inv (fun _ => True) (session pl req) :=
  .bind (keeps_checkCoockie hPieces.verify trivial req) fun _ =>
    .ite (hPieces.adminController req) <|
      .ite (hPieces.userController req) (hPieces.reply .sendAway)

theorem KeptByPieces.verifyConnection : Keeps inv (fun _ => True) (verifyConnection pl) := by
  have hRefuse : Keeps inv (fun _ => True) (refuse pl) :=
    .bind .get fun _ => .bind (hPieces.connectAsync _) fun _ =>
      hPieces.reply (.bind (.modifyResponse _) fun _ => .writePage _ _)
  exact .bind (hPieces.reply .isConnect) fun _ =>
    .ite (.bind hRefuse fun _ => .pure _) (.pure _)

/-- A page with the connection data is for an administrator, or for everybody while there is
no connection. -/
theorem KeptByPieces.guardedPage (req : Request) {page : Prog Unit}
    (hPage : Keeps inv (fun _ => True) page) :
    Keeps inv (fun _ => True) (settingsAllowed pl req >>= fun allowed =>
      if allowed = true then page else redirect (ascii "/") >>= fun _ => endResponse) :=
  .bind (keeps_settingsAllowed hPieces.verify trivial req) fun _ =>
    .ite hPage (hPieces.reply (.bind (.modifyResponse _) fun _ => .modifyResponse _))

theorem KeptByPieces.databaseVerefy : Keeps inv (fun _ => True) (databaseVerefy pl) := by
  have hMap : Server.databaseVerefy pl = Server.verifyConnection pl >>= fun _ => Pure.pure PUnit.unit := rfl
  rw [hMap]
  exact .bind hPieces.verifyConnection fun _ => .pure _

/-- Every request keeps it. -/
theorem KeptByPieces.serve (route : Route) (req : Request) :
    Keeps inv (fun _ => True) (serve pl route req) := by
  cases route with
  | publicFiles path => exact hPieces.reply (.staticFiles _)
  | root =>
      exact keeps_behind hPieces.databaseVerefy <|
        .bind (hPieces.write (Calls.authMain_of_select fun _ _ => trivial))
          fun _ => hPieces.reply (.returnContent _ _)
  | auth => exact hPieces.authPost req
  | settingsDberror =>
      apply hPieces.guardedPage
      exact .bind (hPieces.reply (.modifyResponse _)) fun _ => .bind .get fun _ =>
        hPieces.reply (.bind (.reloadContext _) fun _ => .writePage _ _)
  | settingsDberrorSend =>
      apply hPieces.guardedPage
      exact .bind (hPieces.reply (.orThrow _)) fun _ => .bind (hPieces.reply (.orThrow _)) fun _ =>
        .ite (hPieces.reply (.replyStatus _)) <| .bind (hPieces.reply (.orThrow _)) fun _ =>
          .bind (hPieces.connectAsync _) fun _ => hPieces.reply (.replyStatus _)
  | settingsDberrorCheck =>
      apply hPieces.guardedPage
      exact .bind .get fun _ => .ite (hPieces.reply (.replyStatus _)) <|
        .ite (hPieces.reply (.replyStatus _)) (hPieces.reply (.replyStatus _))
  | api => exact keeps_behind hPieces.databaseVerefy (hPieces.reply (.returnContent _ _))
  | client func =>
      refine keeps_behind (.bind hPieces.verifyConnection fun _ => .ite ?_ (.pure _)) (.pure _)
      exact hPieces.session req

end Pieces

/-! ## Properties of the databases -/

/-- The two states have the same databases, reach the same one of them, and have the same
station and time. -/
structure SameStore (w next : World) : Prop where
  con : next.azsDb.con = w.azsDb.con
  azsId : next.azsDb.azsId = w.azsDb.azsId
  now : next.env.now = w.env.now
  mysql : next.mysql = w.mysql

section Stores

variable {pl : Platform} {inv : World → Prop}

/-- A property of this kind is kept by a program of statements if the statements keep it. -/
theorem Calls.keeps_of_store {α : Type} {allowed : Entry → Prop} {offRow : Prop} {m : Prog α}
    (hCalls : Calls pl allowed offRow m) (hSame : ∀ w next, inv w → SameStore w next → inv next)
    (hUpdate : ∀ w place u tables, inv w → allowed (.update u true) →
      u.run pl.mysql (w.mysql place) = some tables →
        inv { w with mysql := Function.update w.mysql place tables }) :
    Keeps inv (fun _ => True) m := by
  apply hCalls.keeps_of_steps
  · exact fun w hInv => hSame w _ hInv ⟨rfl, rfl, rfl, rfl⟩
  · exact fun w e hInv _ => hSame w _ hInv ⟨rfl, rfl, rfl, rfl⟩
  · intro w place u tables hInv hLine hRun
    exact hSame _ _ (hUpdate w place u tables hInv hLine hRun) ⟨rfl, rfl, rfl, rfl⟩
  · exact fun w hInv => hSame w _ hInv ⟨rfl, rfl, rfl, rfl⟩
  · exact fun w f hInv => hSame w _ hInv ⟨rfl, rfl, rfl, rfl⟩
  · exact fun _ _ _ _ _ => trivial
  · exact fun _ _ => trivial

/-- It is kept by the pieces of a request if the statements and the functions that insert
rows keep it. -/
theorem keptByPieces_of_store (hSame : ∀ w next, inv w → SameStore w next → inv next)
    (hUpdate : ∀ w place (u : Mysql.Update) tables, inv w →
      u.isSettings = true → u.insertsNozzle = false →
        u.run pl.mysql (w.mysql place) = some tables →
          inv { w with mysql := Function.update w.mysql place tables })
    (hSetTrk : ∀ trk, Keeps inv (fun _ => True) (setTrk pl trk))
    (hTake : ∀ userid, Keeps inv (fun _ => True) (takeShift pl userid))
    (hClose : Keeps inv (fun _ => True) (smenaClose pl)) : KeptByPieces pl inv := by
  have hSecret : ∀ w, inv w → inv (afterSecret pl w) := fun w hInv =>
    hSame w _ hInv ⟨by rw [azsDb_afterSecret], by rw [azsDb_afterSecret], now_afterSecret pl w,
      mysql_afterSecret pl w⟩
  refine ⟨fun hCalls => ?_, hSetTrk, hTake, hClose, ?_, fun w bare hInv => ?_, fun info => ?_⟩
  · exact hCalls.keeps_of_store hSame fun w place u tables hInv hLine hRun =>
      hUpdate w place u tables hInv hLine.1 hLine.2 hRun
  · exact keeps_issueToken hSecret (fun w _ _ _ hInv => hSame w _ hInv ⟨rfl, rfl, rfl, rfl⟩)
      fun w _ hInv => hSame w _ hInv ⟨rfl, rfl, rfl, rfl⟩
  · exact hSame _ _ (hSecret w hInv) ⟨rfl, rfl, rfl, rfl⟩
  · have hStep : ∀ f : World → World, (∀ w, SameStore w (f w)) →
        Keeps inv (fun _ => True)
          (MonadState.modifyGet (fun w => (PUnit.unit, f w)) : Prog PUnit) := fun f hStore =>
      .modify fun w hInv => hSame w _ hInv (hStore w)
    refine .bind .get fun _ => .ite ?_ (.pure _)
    exact .bind (hStep _ fun _ => ⟨rfl, rfl, rfl, rfl⟩) fun _ =>
      .bind (hStep _ fun _ => ⟨rfl, rfl, rfl, rfl⟩) fun _ =>
        .bind (hStep _ fun _ => ⟨rfl, rfl, rfl, rfl⟩) fun _ =>
          hStep _ fun _ => ⟨rfl, rfl, rfl, rfl⟩

/-- It is kept if every statement keeps it. -/
theorem keptByPieces_of_update (hSame : ∀ w next, inv w → SameStore w next → inv next)
    (hUpdate : ∀ w place (u : Mysql.Update) tables, inv w →
      u.run pl.mysql (w.mysql place) = some tables →
        inv { w with mysql := Function.update w.mysql place tables }) : KeptByPieces pl inv := by
  have hKeeps : ∀ {α : Type} {m : Prog α}, Calls pl Entry.isDatabaseLine False m →
      Keeps inv (fun _ => True) m := fun hCalls =>
    hCalls.keeps_of_store hSame fun w place u tables hInv _ hRun => hUpdate w place u tables hInv hRun
  apply keptByPieces_of_store hSame
  · exact fun w place u tables hInv _ _ hRun => hUpdate w place u tables hInv hRun
  · exact fun trk => hKeeps (.setTrk trk)
  · exact fun userid => hKeeps (.ofShiftLines (.takeShift userid))
  · exact hKeeps (.ofShiftLines .smenaClose)

/-! ## Events -/

/-- The time at which an event leaves the process. -/
def Event.time (e : Event) (w : World) : TimePoint := (e.env?.map (·.now)).getD w.env.now

/-- The databases and the time are the same. -/
def SameDatabases (w next : World) : Prop := next.mysql = w.mysql ∧ next.env.now = w.env.now

theorem SameDatabases.trans {start w next : World} (hFirst : SameDatabases start w)
    (hNext : SameDatabases w next) : SameDatabases start next :=
  ⟨hNext.1.trans hFirst.1, hNext.2.trans hFirst.2⟩

theorem now_afterRegenerate (pl : Platform) (info : MysqlConnInfo) (w : World) :
    (afterRegenerate pl info w).env.now = w.env.now := by
  unfold afterRegenerate
  split_ifs
  · rfl
  · rfl

/-- A step of a thread changes no database. -/
theorem sameDatabases_work (pl : Platform) (pc : WorkerPc) (info : MysqlConnInfo) (w : World) :
    SameDatabases w (endState (pc.run pl info) w) := by
  have hEnds := endState_work pl pc info w
  generalize endState (pc.run pl info) w = next at hEnds ⊢
  cases hEnds with
  | member hLast hFlag => exact ⟨rfl, rfl⟩
  | regenerate => exact ⟨mysql_afterRegenerate pl info w, now_afterRegenerate pl info w⟩
  | save => exact ⟨rfl, rfl⟩
  | station => exact ⟨rfl, rfl⟩

/-- Nor does `connect`. -/
theorem sameDatabases_connect (pl : Platform) (info : MysqlConnInfo) (w : World) :
    SameDatabases w (endState (connect pl info) w) :=
  Threads.inv_connect (fun pc info before hSame =>
    hSame.trans (sameDatabases_work pl pc info before)) info ⟨rfl, rfl⟩

/-- An event is a request, or it changes no database; in both cases it leaves its time
behind. -/
theorem databases_of_step {s next : Process} {e : Event} (hStep : s.step pl e = some next) :
    (next.world.mysql = s.world.mysql ∧ next.world.env.now = e.time s.world) ∨
      ∃ route cookie body env, e = .request route cookie body env ∧
        next.world = endState (serve pl route ⟨route.url, cookie, body⟩) (s.world.received env) := by
  cases e with
  | start env =>
      rw [Process.step] at hStep
      cases hRun : startProcess pl (s.world.under env) with
      | error thrown w =>
          rw [hRun] at hStep
          cases hStep
      | ok a w =>
          rw [hRun] at hStep
          cases hStep
          have hEnd : endState (startProcess pl) (s.world.under env) = w := by rw [endState, hRun]
          rw [startProcess_endState] at hEnd
          have hConnect : SameDatabases (renewed (s.world.under env)) w := by
            rw [← hEnd]
            exact sameDatabases_connect pl _ _
          exact Or.inl hConnect
  | request route cookie body env =>
      obtain ⟨w, hRun, rfl⟩ := Option.map_eq_some_iff.mp hStep
      exact Or.inr ⟨route, cookie, body, env, rfl, (endState_of_goesOn hRun).symm⟩
  | lock i =>
      rw [Process.step] at hStep
      split at hStep
      · cases hStep
        exact Or.inl ⟨rfl, rfl⟩
      · cases hStep
  | work env =>
      obtain ⟨worker, hRunning, hWork⟩ := Option.bind_eq_some_iff.mp hStep
      have hSame := sameDatabases_work pl worker.pc worker.info (s.world.under env)
      rw [Process.workStep] at hWork
      rw [endState] at hSame
      cases hRun : worker.pc.run pl worker.info (s.world.under env) with
      | ok a w =>
          rw [hRun] at hWork hSame
          cases hWork
          exact Or.inl hSame
      | error thrown w =>
          rw [hRun] at hWork hSame
          cases thrown with
          | sqlException =>
              cases hWork
              exact Or.inl hSame
          | _ => cases hWork

/-! ## Runs -/

/-- A property of the databases that the pieces of a request keep survives every event. -/
theorem databases_keep {P : (Address → Mysql.Tables) → Prop}
    (hPieces : KeptByPieces pl fun w => P w.mysql) {s next : Process} {e : Event}
    (hInv : P s.world.mysql) (hStep : s.step pl e = some next) : P next.world.mysql := by
  rcases databases_of_step hStep with ⟨hMysql, -⟩ | ⟨route, cookie, body, env, rfl, hEnd⟩
  · rw [hMysql]
    exact hInv
  · rw [hEnd]
    exact (hPieces.serve route _).inv_endState hInv

/-- The rule for a relation between earlier and later tables that every statement keeps. -/
theorem along_of_update (pl : Platform) {rel : Mysql.Tables → Mysql.Tables → Prop}
    (hRefl : ∀ t, rel t t) (hTrans : ∀ t u v, rel t u → rel u v → rel t v)
    (hUpdate : ∀ (u : Mysql.Update) t after, u.run pl.mysql t = some after → rel t after)
    (start : Process) (events : List Event) :
    Along (Process.step pl)
      (fun s next => ∀ place, rel (s.world.mysql place) (next.world.mysql place)) start events := by
  refine along_of_step (fun s place => hRefl _)
    (fun s t u hFirst hSecond place => hTrans _ _ _ (hFirst place) (hSecond place))
    (fun s e next (_ : True) hStep => ⟨trivial, ?_⟩) trivial events
  have hPieces : KeptByPieces pl fun w => ∀ place, rel (s.world.mysql place) (w.mysql place) := by
    apply keptByPieces_of_update
    · intro w next hInv hStore
      rw [hStore.mysql]
      exact hInv
    · intro w place u tables hInv hRun other
      show rel _ (Function.update w.mysql place tables other)
      by_cases hPlace : other = place
      · subst hPlace
        rw [Function.update_self]
        exact hTrans _ _ _ (hInv other) (hUpdate u _ _ hRun)
      · rw [Function.update_of_ne hPlace]
        exact hInv other
  exact databases_keep (P := fun mysql => ∀ place, rel (s.world.mysql place) (mysql place))
    hPieces (fun place => hRefl _) hStep

end Stores

end Server
end AzsServer
