import AzsServer.Server.Logins

/-!
# Requests with and without a connection

What the middlewares make of a request: without a connection they answer it with the
error page and start an attempt to connect, with a connection they let it through.
-/

namespace AzsServer
namespace Server

open Core Library Local

/-- The state in which a middleware has refused a request for want of a connection. -/
def afterRefusal (pl : Platform) (w : World) : World :=
  endState (refuse pl) w

section Middleware

variable {pl : Platform} {w : World}

theorem connectAsync_run (info : MysqlConnInfo) (w : World) :
    connectAsync info w = .ok ⟨⟩ (endState (connectAsync info) w) := by
  unfold endState connectAsync
  rw [get_bind_run, ite_run]
  split_ifs
  · rfl
  · rfl

theorem refuse_run (pl : Platform) (w : World) :
    refuse pl w = .ok ⟨⟩ (endState (writeErrorPage pl)
      (endState (connectAsync w.azsDb.lastConnectInfo) w)) := by
  unfold refuse
  rw [get_bind_run, bind_of_ok (connectAsync_run _ w)]
  rfl

theorem afterRefusal_eq (pl : Platform) (w : World) :
    afterRefusal pl w =
      endState (writeErrorPage pl) (endState (connectAsync w.azsDb.lastConnectInfo) w) := by
  rw [afterRefusal, endState, refuse_run]

theorem completed_afterRefusal (pl : Platform) (w : World) :
    (afterRefusal pl w).response.completed = true := by
  rw [afterRefusal_eq]
  rfl

theorem verifyConnection_run_of_true (hIsconn : w.azsDb.isconn = true) :
    verifyConnection pl w = .ok true w := by
  unfold verifyConnection
  rw [bind_of_ok (isConnect_run w), hIsconn]
  rfl

theorem verifyConnection_run_of_false (pl : Platform) (hIsconn : w.azsDb.isconn = false) :
    verifyConnection pl w = .ok false (afterRefusal pl w) := by
  have hRefuse : refuse pl w = .ok ⟨⟩ (afterRefusal pl w) := by
    rw [refuse_run, afterRefusal_eq]
  unfold verifyConnection
  rw [bind_of_ok (isConnect_run w), hIsconn]
  exact bind_of_ok hRefuse

theorem behind_of_completed {middleware handler : Prog Unit} {next : World}
    (hRun : middleware w = .ok ⟨⟩ next) (hCompleted : next.response.completed = true) :
    behind middleware handler w = .ok ⟨⟩ next := by
  rw [behind, bind_of_ok hRun, get_bind_run, hCompleted]
  rfl

theorem behind_of_not_completed {middleware handler : Prog Unit} {next : World}
    (hRun : middleware w = .ok ⟨⟩ next) (hCompleted : next.response.completed = false) :
    behind middleware handler w = handler next := by
  rw [behind, bind_of_ok hRun, get_bind_run, hCompleted]
  rfl

/-- The empty handler of a page behind a session. -/
theorem behind_pure (middleware : Prog Unit) (w : World) :
    behind middleware (return ⟨⟩) w = middleware w := by
  cases hRun : middleware w with
  | error e next => exact bind_of_error hRun
  | ok a next =>
      cases hCompleted : next.response.completed with
      | true => exact behind_of_completed hRun hCompleted
      | false => exact behind_of_not_completed hRun hCompleted

/-- Without a connection every route with a middleware is refused. -/
theorem serve_of_refused {route : Route} (hRoute : route.hasMiddleware = true) (req : Request)
    (hIsconn : w.azsDb.isconn = false) : serve pl route req w = .ok ⟨⟩ (afterRefusal pl w) := by
  have hVerify := verifyConnection_run_of_false pl hIsconn
  have hDatabase : databaseVerefy pl w = .ok ⟨⟩ (afterRefusal pl w) := by
    show EStateM.map (fun _ => PUnit.unit) (verifyConnection pl) w = _
    rw [EStateM.map, hVerify]
  have hAuth : authVerefy pl req w = .ok ⟨⟩ (afterRefusal pl w) := by
    rw [authVerefy, bind_of_ok hVerify]
    rfl
  cases route with
  | root => exact behind_of_completed hDatabase (completed_afterRefusal pl w)
  | api => exact behind_of_completed hDatabase (completed_afterRefusal pl w)
  | client func => exact behind_of_completed hAuth (completed_afterRefusal pl w)
  | _ => cases hRoute

theorem databaseVerefy_run_of_true (hIsconn : w.azsDb.isconn = true) :
    databaseVerefy pl w = .ok ⟨⟩ w := by
  show EStateM.map (fun _ => PUnit.unit) (verifyConnection pl) w = _
  rw [EStateM.map, verifyConnection_run_of_true hIsconn]

/-- With a connection the middleware lets the login page through. -/
theorem serve_root_of_connected (req : Request) (hIsconn : w.azsDb.isconn = true)
    (hOpen : w.response.completed = false) :
    serve pl .root req w =
      (authMain pl >>= returnContent [(ascii "Content-Type", ascii "text/html")]) w :=
  behind_of_not_completed (databaseVerefy_run_of_true hIsconn) hOpen

theorem serve_api_of_connected (req : Request) (hIsconn : w.azsDb.isconn = true)
    (hOpen : w.response.completed = false) :
    serve pl .api req w = returnContent [] (ascii "\x7b\x7d") w :=
  behind_of_not_completed (databaseVerefy_run_of_true hIsconn) hOpen

/-- With a connection a page behind a session is what the session makes of it. -/
theorem serve_client_of_connected (func : ClientCall) (req : Request)
    (hIsconn : w.azsDb.isconn = true) : serve pl (.client func) req w = session pl req w := by
  have hAuth : authVerefy pl req w = session pl req w := by
    rw [authVerefy, bind_of_ok (verifyConnection_run_of_true hIsconn)]
    rfl
  rw [← hAuth]
  exact behind_pure (authVerefy pl req) w

end Middleware

/-! ## The rule for requests -/

section Rule

variable {pl : Platform} {inv : World → Prop} {w : World}

/-- A handler that only writes shift lines. -/
theorem inv_calls {α : Type} {m : Prog α}
    (hFrame : ∀ w next, inv w → Framed Entry.isShiftLine w next → inv next)
    (hCalls : Calls pl Entry.isShiftLine False m) : Keeps inv (fun _ => True) m :=
  hCalls.keeps hFrame fun _ _ _ _ => trivial

theorem inv_connectAsync (hConnecting : ∀ w info, inv w → inv (endState (connectAsync info) w))
    (info : MysqlConnInfo) : Keeps inv (fun _ => True) (connectAsync info) := by
  intro w hInv
  rw [connectAsync_run]
  exact hConnecting w info hInv

/-- The rule for requests: a property that programs which select keep, and that survives the
verification of a token and the start of a connect attempt, survives every request, if it
survives a login and what a client with a session does. -/
theorem endState_serve_of_reads (inv : World → Prop) (route : Route) (req : Request)
    (hInv : inv w) (hOpen : w.response.completed = false)
    (hReads : ∀ {α : Type} {m : Prog α}, Calls pl Entry.isSelect False m →
      Keeps inv (fun _ => True) m)
    (hVerify : ∀ w bare, inv w → inv (afterVerify pl bare w))
    (hConnecting : ∀ w info, inv w → inv (endState (connectAsync info) w))
    (hLogin : route = .auth → inv (endState (authPost pl req) w))
    (hAdmin : ∀ func next, route = .client func → w.azsDb.isconn = true →
      checkCoockie pl req w = .ok 1 next → inv next →
        inv (endState (Admin.controller pl req) next))
    (hUser : ∀ func next, route = .client func → w.azsDb.isconn = true →
      checkCoockie pl req w = .ok 0 next → inv next →
        inv (endState (User.controller pl req) next)) :
    inv (endState (serve pl route req) w) := by
  have hReply : ∀ {α : Type} {m : Prog α}, Calls pl (fun _ => False) False m →
      Keeps inv (fun _ => True) m := fun hSilent =>
    hReads (hSilent.mono fun _ hFalse => hFalse.elim)
  have hAllowed : Keeps inv (fun _ => True) (settingsAllowed pl req) :=
    keeps_settingsAllowed hVerify trivial req
  have hRedirect : Keeps inv (fun _ => True) (redirect (ascii "/") >>= fun _ => endResponse) :=
    hReply (.bind (.modifyResponse _) fun _ => .modifyResponse _)
  by_cases hRefused : route.hasMiddleware = true ∧ w.azsDb.isconn = false
  · -- the middleware refuses the request
    rw [endState, serve_of_refused hRefused.1 req hRefused.2]
    have hRefuse : Keeps inv (fun _ => True) (refuse pl) :=
      .bind .get fun _ => .bind (inv_connectAsync hConnecting _) fun _ =>
        hReply (.bind (.modifyResponse _) fun _ => .writePage _ _)
    exact hRefuse.inv_endState hInv
  have hIsconn : route.hasMiddleware = true → w.azsDb.isconn = true := fun hMiddleware => by
    by_contra hFalse
    exact hRefused ⟨hMiddleware, by simpa using hFalse⟩
  cases route with
  | publicFiles path => exact (hReply (.staticFiles _)).inv_endState hInv
  | root =>
      rw [endState, serve_root_of_connected req (hIsconn rfl) hOpen]
      have hMain : Keeps inv (fun _ => True)
          (authMain pl >>= returnContent [(ascii "Content-Type", ascii "text/html")]) :=
        .bind (hReads (.authMain_of_select fun _ _ => trivial)) fun _ => hReply (.returnContent _ _)
      exact hMain.inv_endState hInv
  | auth => exact hLogin rfl
  | settingsDberror =>
      have hPage : Keeps inv (fun _ => True) (settingsdbError pl req) :=
        .bind hAllowed fun _ => .ite
          (.bind (hReply (.modifyResponse _)) fun _ => .bind .get fun _ =>
            hReply (.bind (.reloadContext _) fun _ => .writePage _ _)) hRedirect
      exact hPage.inv_endState hInv
  | settingsDberrorSend =>
      have hSend : Keeps inv (fun _ => True) (settingsdbErrorSend pl req) :=
        .bind hAllowed fun _ => .ite
          (.bind (hReply (.orThrow _)) fun _ => .bind (hReply (.orThrow _)) fun _ =>
            .ite (hReply (.replyStatus _)) <| .bind (hReply (.orThrow _)) fun _ =>
              .bind (inv_connectAsync hConnecting _) fun _ => hReply (.replyStatus _))
          hRedirect
      exact hSend.inv_endState hInv
  | settingsDberrorCheck =>
      have hCheck : Keeps inv (fun _ => True) (settingsdbErrorCheck pl req) :=
        .bind hAllowed fun _ => .ite
          (.bind .get fun _ => .ite (hReply (.replyStatus _)) <|
            .ite (hReply (.replyStatus _)) (hReply (.replyStatus _)))
          hRedirect
      exact hCheck.inv_endState hInv
  | api =>
      rw [endState, serve_api_of_connected req (hIsconn rfl) hOpen]
      exact (hReply (.returnContent _ _)).inv_endState hInv
  | client func =>
      rw [endState, serve_client_of_connected func req (hIsconn rfl)]
      have hCheck : Keeps inv (fun _ => True) (checkCoockie pl req) :=
        keeps_checkCoockie hVerify trivial req
      have hChecked := hCheck w hInv
      cases hRun : checkCoockie pl req w with
      | error e next =>
          rw [hRun] at hChecked
          rw [session, bind_of_error hRun]
          exact hChecked.1
      | ok result next =>
          rw [hRun] at hChecked
          rw [session, bind_of_ok hRun]
          show inv (endState (if result = 1 then Admin.controller pl req
            else if result = 0 then User.controller pl req else sendAway) next)
          by_cases hOne : result = 1
          · subst hOne
            rw [if_pos rfl]
            exact hAdmin func next rfl (hIsconn rfl) hRun hChecked
          · rw [if_neg hOne]
            by_cases hZero : result = 0
            · subst hZero
              rw [if_pos rfl]
              exact hUser func next rfl (hIsconn rfl) hRun hChecked
            · rw [if_neg hZero]
              exact (hReply .sendAway).inv_endState hChecked

/-- The rule for a property that the programs of a shift keep. -/
theorem endState_serve_of_calls (inv : World → Prop) (route : Route) (req : Request)
    (hInv : inv w) (hOpen : w.response.completed = false)
    (hCalls : ∀ {α : Type} {m : Prog α}, Calls pl Entry.isShiftLine False m →
      Keeps inv (fun _ => True) m)
    (hVerify : ∀ w bare, inv w → inv (afterVerify pl bare w))
    (hConnecting : ∀ w info, inv w → inv (endState (connectAsync info) w))
    (hLogin : route = .auth → inv (endState (authPost pl req) w))
    (hAdmin : ∀ func next, route = .client func → w.azsDb.isconn = true →
      checkCoockie pl req w = .ok 1 next → inv next →
        inv (endState (Admin.controller pl req) next)) :
    inv (endState (serve pl route req) w) :=
  endState_serve_of_reads inv route req hInv hOpen
    (fun hReads => hCalls (hReads.mono Entry.isShiftLine_of_select)) hVerify hConnecting hLogin
    hAdmin fun _ _ _ _ _ hNext => (hCalls (.userController req)).inv_endState hNext

/-- The rule for a property that survives the statements of a shift. -/
theorem endState_serve (inv : World → Prop) (route : Route) (req : Request) (hInv : inv w)
    (hOpen : w.response.completed = false)
    (hFrame : ∀ w next, inv w → Framed Entry.isShiftLine w next → inv next)
    (hVerify : ∀ w bare, inv w → inv (afterVerify pl bare w))
    (hConnecting : ∀ w info, inv w → inv (endState (connectAsync info) w))
    (hLogin : route = .auth → inv (endState (authPost pl req) w))
    (hAdmin : ∀ func next, route = .client func → w.azsDb.isconn = true →
      checkCoockie pl req w = .ok 1 next → inv next →
        inv (endState (Admin.controller pl req) next)) :
    inv (endState (serve pl route req) w) :=
  endState_serve_of_calls inv route req hInv hOpen (fun hCalls => inv_calls hFrame hCalls)
    hVerify hConnecting hLogin hAdmin

end Rule

end Server
end AzsServer
