import AzsServer.Server.Clients
import AzsServer.Server.ConnectThreads

/-!
# The routes and the process

`init_view_login` registers the routes; most of them run behind a middleware that
may answer first.  The requests are handled one after the other, while a thread of
`connect_async` comes forward step by step in between.  A start of the process
builds its objects anew and connects with the saved data.
-/

namespace AzsServer
namespace Server

open Core Local

/-- The routes of `init_view_login`. -/
inductive Route where
  | publicFiles (path : Bytes)
  | root
  | auth
  | settingsDberror
  | settingsDberrorSend
  | settingsDberrorCheck
  | api
  | client (func : ClientCall)
deriving DecidableEq

/-- The URL of a route. -/
def Route.url : Route → Bytes
  | .publicFiles path => ascii "/public/" ++ path
  | .root => ascii "/"
  | .auth => ascii "/auth"
  | .settingsDberror => ascii "/settings/dberror"
  | .settingsDberrorSend => ascii "/settings/dberror/send"
  | .settingsDberrorCheck => ascii "/settings/dberror/check"
  | .api => ascii "/api"
  | .client func => ascii (((urlToFunc.find? fun entry => entry.2 = func).map (·.1)).getD "")

/-- The URL of a page behind a session leads back to its function. -/
theorem findFunc_url (func : ClientCall) : findFunc (Route.client func).url = some func := by
  cases func <;> decide +kernel

/-- The routes with `CROW_MIDDLEWARES`. -/
def Route.hasMiddleware : Route → Bool
  | .root => true
  | .api => true
  | .client _ => true
  | _ => false

section Handling

variable (pl : Platform)

/-- The part of `AuthVerefy::before_handle` behind the test of the connection: the
cookie decides who handles the request. -/
def session (req : Request) : Prog Unit := do
  let result ← checkCoockie pl req
  if result = 1 then
    Admin.controller pl req
  else if result = 0 then
    User.controller pl req
  else
    sendAway

/-- `AuthVerefy::before_handle` -/
def authVerefy (req : Request) : Prog Unit := do
  if (← verifyConnection pl) = true then
    session pl req

/-- `DatabaseVerefy::before_handle` -/
def databaseVerefy : Prog Unit := discard (verifyConnection pl)

/-- A handler runs unless the middleware has ended the reply. -/
def behind (middleware handler : Prog Unit) : Prog Unit := do
  middleware
  let w ← get
  if w.response.completed = false then
    handler

/-- The reply of a handler that returns its content. -/
def returnContent (headers : List (Bytes × Bytes)) (body : Bytes) : Prog Unit := do
  modifyResponse fun _ => { headers := headers, body := body }
  endResponse

/-- A request to a route. -/
def serve (route : Route) (req : Request) : Prog Unit :=
  match route with
  | .publicFiles path => staticFiles pl (ascii "public/" ++ path)
  | .root =>
      behind (databaseVerefy pl) do
        let page ← authMain pl
        returnContent [(ascii "Content-Type", ascii "text/html")] page
  | .auth => authPost pl req
  | .settingsDberror => settingsdbError pl req
  | .settingsDberrorSend => settingsdbErrorSend pl req
  | .settingsDberrorCheck => settingsdbErrorCheck pl req
  | .api => behind (databaseVerefy pl) (returnContent [] (ascii "\x7b\x7d"))
  | .client _ => behind (authVerefy pl req) (return ⟨⟩)

/-- What the client receives.  Crow turns an exception into a reply with code 500;
behind a middleware nobody sends it, as nobody sends a reply that is not ended. -/
def answer (route : Route) : EStateM.Result Throw World Unit → Option Response
  | .ok _ w => if w.response.completed = true then some w.response else none
  | .error _ _ =>
      if route.hasMiddleware = true then none else some { code := 500, completed := true }

/-- The objects of a new process; the result is the saved connection data. -/
def newProcess : Prog MysqlConnInfo := do
  modify fun w => { w with azsDb := {}, ld := { tables := w.ld.tables }, started := [] }
  let o ← nextSqlite
  let w ← get
  let (info, ld) := startLocalData o w.ld.tables
  set { w with ld := ld }
  modifyDb fun db => { db with lastConnectInfo := info }
  return info

/-- The constructor of `azs`. -/
def startProcess : Prog Unit := do
  let info ← newProcess
  discard (connect pl info)

end Handling

/-! ## The process step by step -/

/-- The server together with the thread that holds the mutex of `connect`. -/
structure Process where
  world : World
  running : Option Worker

/-- What happens to the process. -/
inductive Event where
  /-- The process starts, after the last one has ended anywhere. -/
  | start (env : Env)
  | request (route : Route) (cookie body : Bytes) (env : Env)
  /-- One of the waiting threads takes the mutex. -/
  | lock (i : Nat)
  /-- The thread that holds the mutex does its next step. -/
  | work (env : Env)

/-- The state in which a request begins to be handled. -/
def World.received (w : World) (env : Env) : World :=
  (w.under env).mapResponse fun _ => {}

/-- The run of the handler of a request. -/
def Process.handled (pl : Platform) (s : Process) (route : Route) (cookie body : Bytes)
    (env : Env) : EStateM.Result Throw World Unit :=
  serve pl route ⟨route.url, cookie, body⟩ (s.world.received env)

/-- The process behind a handler. -/
def Process.behindHandler (s : Process) (result : EStateM.Result Throw World Unit) :
    Option Process :=
  (goesOn result).map fun w => { s with world := w }

/-- One step of the thread that holds the mutex. -/
def Process.workStep (pl : Platform) (s : Process) (worker : Worker) (env : Env) :
    Option Process :=
  match worker.pc.run pl worker.info (s.world.under env) with
  | .ok _ w => some ⟨w, worker.pc.next.map (⟨worker.info, ·⟩)⟩
  | .error .sqlException w => some ⟨w, some ⟨worker.info, .failed⟩⟩
  | .error _ _ => none

/-- The step relation, as a partial function of the event. -/
def Process.step (pl : Platform) (s : Process) : Event → Option Process
  | .start env =>
      match startProcess pl (s.world.under env) with
      | .ok _ w => some ⟨w, none⟩
      | .error _ _ => none
  | .request route cookie body env => s.behindHandler (s.handled pl route cookie body env)
  | .lock i =>
      match s.running, s.world.started[i]? with
      | none, some info =>
          some ⟨{ s.world with started := s.world.started.eraseIdx i }, some ⟨info, .input⟩⟩
      | _, _ => none
  | .work env => s.running.bind fun worker => s.workStep pl worker env

/-- Nothing has ever run: a new file `azs.db` and empty databases. -/
def Process.fresh : Process := ⟨.fresh, none⟩

/-- A request whose body is the text of a value. -/
def posted (route : Route) (cookie : Bytes) (value : Nlohmann.Json) (letter : Fin 36) : Event :=
  .request route cookie value.plainText (drawing letter)

/-- The events of a connect attempt that reaches its end. -/
def attempt (letter : Fin 36) : List Event := .lock 0 :: List.replicate 8 (.work (drawing letter))

end Server
end AzsServer
