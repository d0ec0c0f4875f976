import AzsServer.Server.Shifts

/-!
# The cookie check, the middlewares and the pages without a session

The functions of `controller.cpp`.  A handler writes the reply and ends it; a JSON
value of the wrong type, a text that is no JSON and a number that is none leave it
through a standard exception.
-/

namespace AzsServer
namespace Server

open Core Local

/-- What a handler reads of a request. -/
structure Request where
  url : Bytes := []
  /-- The value of the header `Cookie`, empty if there is none. -/
  cookie : Bytes := []
  body : Bytes := []
deriving DecidableEq

/-! ## Replies -/

/-- The text that `dump` writes for `{"status": status}`. -/
def statusText (status : String) : Bytes :=
  ascii "\x7b\"status\":\"" ++ ascii status ++ ascii "\"\x7d"

/-- `res.body = ret.dump(); res.end()` for a reply with a status. -/
def replyStatus (status : String) : Prog Unit := do
  setBody (statusText status)
  endResponse

/-- The end of the session: the browser is to forget the token. -/
def forgetToken : Prog Unit :=
  addHeader (ascii "Set-Cookie") (ascii "refresh_token=;path=/;")

section Controller

variable (pl : Platform)

/-- `crow::mustache::load(page)`, `page.render(ctx)`, `res.write` and `res.end`. -/
def writePage (page : String) (ctx : Crow.Json) : Prog Unit := do
  write (pl.render (ascii page) ctx)
  endResponse

/-- `crow::json::load(ctx.dump())`, converted to a write value. -/
def reloadContext (ctx : Nlohmann.Json) : Prog Crow.Json := do
  let text ← orThrow (pl.dump ctx)
  orThrow (Crow.load text)

/-- The page that a middleware writes while there is no connection. -/
def writeErrorPage : Prog Unit := do
  setHeader (ascii "Content-Type") (ascii "text/html")
  writePage pl "public/old/erorr_db.html" .null

/-- Without a connection a new attempt starts and the reply is the error page. -/
def refuse : Prog Unit := do
  let w ← get
  connectAsync w.azsDb.lastConnectInfo
  writeErrorPage pl

/-- The start of both middlewares; the result is `isConnect`. -/
def verifyConnection : Prog Bool := do
  let connected ← isConnect
  if connected = false then
    refuse pl
  return connected

/-! ## The session -/

/-- The age in whole minutes of a session created at the time that a text tells. -/
def ageMinutes (now : TimePoint) (timeStr : Bytes) : Int :=
  ((now.ns : Int) - strtotime pl.zone timeStr).tdiv (60 * 10 ^ 9)

/-- The result of `check_coockie` for the payload of an accepted token. -/
def payloadRole (now : TimePoint) (payload : Crow.Json) : Int :=
  let timeStr := Crow.dumpTrue pl.floatText (payload.member (ascii "time_create"))
  if ageMinutes pl now timeStr < 100 then
    if Crow.dumpTrue pl.floatText (payload.member (ascii "admin")) = ascii "true" then 1 else 0
  else
    -1

/-- `check_coockie`: 1 for an administrator, 0 for a user, -1 for no session. -/
def checkCoockie (req : Request) : Prog Int := do
  let jcookie ← orThrow (Crow.load (parseCookie req.cookie))
  let token := jcookie.member (ascii "refresh_token")
  let text := Crow.dump pl.floatText token
  if text = ascii "null" ∨ text = ascii "\"\"" then
    return -1
  else
    let (accepted, payload) ← verifyToken pl (Crow.dumpTrue pl.floatText token)
    let now ← systemNow
    if accepted = true then
      return payloadRole pl now payload
    else
      return -1

/-- `isConnect() == false || check_coockie(req, res) == 1` -/
def settingsAllowed (req : Request) : Prog Bool := do
  if (← isConnect) = false then
    return true
  else
    let result ← checkCoockie pl req
    return decide (result = 1)

/-! ## The login page -/

/-- The operator of the open shift comes to the front. -/
def operatorFirst (userid : Int) (res : List UserName) : List UserName :=
  match res.findIdx? fun u => u.id = userid with
  | none => res
  | some i => (res.set i (res.getD 0 {})).set 0 (res.getD i {})

/-- `auth_main` -/
def authMain : Prog Bytes := do
  let res ← getUsersName pl
  let (smena, userid) ← smenaBoolUser pl 0
  let res := if smena = true then operatorFirst userid res else res
  let users : Crow.Json :=
    if res = [] then .string []
    else .list (res.map fun u =>
      .object [(ascii "id", .number (intToString u.id)), (ascii "name", .string u.name)])
  let ctx : List (Bytes × Crow.Json) :=
    (ascii "users", users) :: (if smena = true then [(ascii "smena", .bool true)] else [])
  return pl.render (ascii "public/old/login.html") (.object ctx)

/-- `x[i]["value"]` as a string. -/
def formValue (x : Nlohmann.Json) (i : Nat) : Option Bytes := do
  let entry ← x.item i
  let value ← entry.field "value"
  value.toString?

/-- The user id and the password in the body of a login. -/
def loginForm (body : Bytes) : Option (Int × Bytes) := do
  let x ← pl.parse body
  let str ← formValue x 0
  let userid ← stoi str
  let password ← formValue x 1
  return (userid, password)

/-- The body of a login of user 7, as the login page sends it. -/
def clerkBody : Bytes :=
  ascii "[\x7b\"value\":\"7\"\x7d,\x7b\"value\":\"pw\"\x7d]"

/-- The JSON value of the body. -/
def clerkForm : Nlohmann.Json :=
  .array [.object [(ascii "value", .string (ascii "7"))],
    .object [(ascii "value", .string (ascii "pw"))]]

/-- An entry of a form. -/
def formEntry (value : Bytes) : Nlohmann.Json :=
  .object [(ascii "value", .string value)]

/-- The form with connection data. -/
def infoForm (info : MysqlConnInfo) : Nlohmann.Json :=
  .array [formEntry info.ip, formEntry info.name, formEntry info.password,
    formEntry info.database, formEntry info.port]

/-- A platform that reads the body of a clerk's login. -/
def clerkPlatform : Platform := .reading .plain clerkBody clerkForm

example : loginForm clerkPlatform clerkBody = some (7, ascii "pw") := by
  decide +kernel

/-- The shift of a login: the open one changes its operator or a new one starts. -/
def takeShift (userid : Int) : Prog Unit := do
  let (smena, idSmena, lastnn) ← smenaBoolIds pl 0 0
  if smena = true then
    smenaChangeOperator pl userid idSmena
  else
    smenaAddOperator pl userid lastnn

/-- The token of a login, in the cookie of the reply. -/
def issueToken (userid : Int) (admin : Bool) : Prog Unit := do
  let token ← createToken pl
    [(ascii "user_id", .string (intToString userid)), (ascii "admin", .bool admin)]
  addHeader (ascii "Set-Cookie") (ascii "refresh_token=" ++ token ++ ascii ";path=/;")

/-- `auth_post` -/
def authPost (req : Request) : Prog Unit := do
  let (userid, password) ← orThrow (loginForm pl req.body)
  let (auth, admin) ← authCheck userid password false
  if auth = true then
    takeShift pl userid
    issueToken pl userid admin
    replyStatus "yes"
  else
    replyStatus "not"

/-! ## The connection data -/

/-- The connection data as the page shows them. -/
def infoContext (last : MysqlConnInfo) : Nlohmann.Json :=
  .object
    [(ascii "host", .string last.ip), (ascii "user", .string last.name),
      (ascii "password", .string last.password), (ascii "database", .string last.database),
      (ascii "port", .string last.port)]

/-- `settingsdb_error` -/
def settingsdbError (req : Request) : Prog Unit := do
  if (← settingsAllowed pl req) = true then
    setHeader (ascii "Content-Type") (ascii "text/html")
    let w ← get
    let ctx ← reloadContext pl (infoContext w.azsDb.lastInputInfo)
    writePage pl "public/old/settings_db_error.html" ctx
  else
    redirect (ascii "/")
    endResponse

/-- The connection data in the body of a request. -/
def postedInfo (x : Nlohmann.Json) : Option MysqlConnInfo := do
  let ip ← formValue x 0
  let name ← formValue x 1
  let password ← formValue x 2
  let database ← formValue x 3
  let port ← formValue x 4
  return { name := name, password := password, ip := ip, database := database, port := port }

/-- `settingsdb_error_send` -/
def settingsdbErrorSend (req : Request) : Prog Unit := do
  if (← settingsAllowed pl req) = true then
    let x ← orThrow (pl.parse req.body)
    let text ← orThrow (pl.dump x)
    if text = ascii "null" ∨ text = ascii "[]" ∨ text = ascii "\"\"" then
      replyStatus "not"
    else
      let info ← orThrow (postedInfo x)
      connectAsync info
      replyStatus "ok"
  else
    redirect (ascii "/")
    endResponse

/-- `settingsdb_error_check` -/
def settingsdbErrorCheck (req : Request) : Prog Unit := do
  if (← settingsAllowed pl req) = true then
    let w ← get
    if w.azsDb.whileConn = true then
      replyStatus "process"
    else if w.azsDb.isconn = true then
      replyStatus "connect"
    else
      replyStatus "disconnect"
  else
    redirect (ascii "/")
    endResponse

/-- The header for the type of a file that has one. -/
def typeHeader : Option Bytes → Prog Unit
  | some contentType => addHeader (ascii "Content-Type") contentType
  | none => return ⟨⟩

/-- `static_files` -/
def staticFiles (path : Bytes) : Prog Unit := do
  match pl.staticFile (ascii "azs_site/" ++ path) with
  | some (contentType, content) =>
      modifyResponse fun r => { r with code := 200 }
      addHeader (ascii "Content-Length") (natToString content.length)
      typeHeader contentType
      setBody content
  | none => modifyResponse fun r => { r with code := 404 }
  endResponse

end Controller

end Server
end AzsServer
