import AzsServer.Server.Controller
import AzsServer.Server.Settings

/-!
# The pages behind a session

The classes `Admin` and `User` of `users_controller.h`.  Both map the URLs to the
same fourteen virtual functions; a user is sent away from most of them.
-/

namespace AzsServer
namespace Server

open Core Nlohmann

/-- The virtual functions of `Client`. -/
inductive ClientCall where
  | mainTrk
  | mainSettings
  | mainSettingsConfig
  | oldMainSettingsConfig
  | apiTrkSave
  | apiOut
  | apiOutshift
  | apiSettingsGet
  | apiSettingsSet
  | apiSettingsDelete
  | apiSettingsTanksGet
  | apiSettingsTovarsGet
  | apiSettingsTrksGet
  | apiSettingsKasaGet
deriving DecidableEq, Repr

/-- `url_to_func` -/
def urlToFunc : List (String × ClientCall) :=
  [("/old/main", .mainTrk), ("/old/main/settings", .mainSettings),
    ("/old/main/settings/configuration", .oldMainSettingsConfig),
    ("/main/settings/configuration", .mainSettingsConfig), ("/api/trk/save", .apiTrkSave),
    ("/api/out", .apiOut), ("/api/outshift", .apiOutshift),
    ("/api/settings/get", .apiSettingsGet), ("/api/settings/set", .apiSettingsSet),
    ("/api/settings/delete", .apiSettingsDelete),
    ("/api/settings/tanks/get", .apiSettingsTanksGet),
    ("/api/settings/tovars/get", .apiSettingsTovarsGet),
    ("/api/settings/trks/get", .apiSettingsTrksGet),
    ("/api/settings/kasa/get", .apiSettingsKasaGet)]

/-- The function that a URL is mapped to. -/
def findFunc (url : Bytes) : Option ClientCall :=
  (urlToFunc.find? fun entry => ascii entry.1 = url).map (·.2)

/-! ## The JSON of the replies -/

/-- `res.set_header("Content-Type", "application/json")` -/
def jsonHeader : Prog Unit := setHeader (ascii "Content-Type") (ascii "application/json")

/-- `res.set_header("Content-Type", "text/html")` -/
def htmlHeader : Prog Unit := setHeader (ascii "Content-Type") (ascii "text/html")

/-- A text as a JSON string. -/
def jsonKey (key : String) (value : Json) : Bytes × Json := (ascii key, value)

/-- `(float)pos / width * 100.0`; over a zero width it is no number, written as null. -/
def percent (pos width : Int) : Json :=
  if width = 0 then .null else .float ((pos : Rat) / width * 100)

/-- `price.resize(price.find(".") + 3)` -/
def cutPrice (price : Bytes) : Bytes := price.take (price.findIdx (· = 46) + 3)

/-- The members `r`, `g` and `b`. -/
def colorMembers (color : Color) : List (Bytes × Json) :=
  [jsonKey "r" (.int color.r), jsonKey "g" (.int color.g), jsonKey "b" (.int color.b)]

/-- A color as `r,g,b`. -/
def colorText (color : Color) : Bytes :=
  intToString color.r ++ ascii "," ++ intToString color.g ++ ascii "," ++ intToString color.b

/-- A product in `api_settings_get` and `api_settings_tovars_get`. -/
def tovarJson (tovar : Tovar) : Json :=
  .object
    [jsonKey "id_tovar" (.int tovar.idTovar), jsonKey "name" (.string tovar.name),
      jsonKey "name_p" (.string tovar.nameP), jsonKey "name_p_f" (.string tovar.namePF),
      jsonKey "name_p_v" (.string tovar.namePV), jsonKey "price" (.float tovar.price),
      jsonKey "color" (.object (colorMembers tovar.color))]

/-- A tank in `api_settings_get` and `api_settings_tanks_get`. -/
def tankJson (tank : Tank) : Json :=
  .object
    [jsonKey "id_tank" (.int tank.idTank), jsonKey "id_tovar" (.int tank.idTovar),
      jsonKey "volume" (.int tank.volume), jsonKey "remain" (.int tank.remain)]

/-- A nozzle in `api_settings_get` and `api_settings_trks_get`. -/
def pistJson (pist : Pist) : Json :=
  .object [jsonKey "id_pist" (.int pist.idPist), jsonKey "id_tank" (.int pist.idTank)]

/-- The members `id_trk` and `pists` of a pump; `pists` appears with the first nozzle. -/
def trkMembers (trk : Trk) : List (Bytes × Json) :=
  jsonKey "id_trk" (.int trk.idTrk) ::
    (if trk.pists = [] then [] else [jsonKey "pists" (.array (trk.pists.map pistJson))])

/-- A pump in `api_settings_get`. -/
def trkJson (trk : Trk) : Json :=
  .object
    (trkMembers trk ++
      [jsonKey "x_pos" (.int trk.xPos), jsonKey "y_pos" (.int trk.yPos),
        jsonKey "scale" (.float trk.scale)])

/-- A member of `ctx` that appears with its first element. -/
def arrayMember (key : String) (values : List Json) : List (Bytes × Json) :=
  if values = [] then [] else [jsonKey key (.array values)]

/-- `ctx`, which stays null as long as it has no member. -/
def contextOf (members : List (Bytes × Json)) : Json :=
  if members = [] then .null else .object members

/-- A nozzle on the main page; `none` is a null `tank_` or `tovar_`. -/
def mainPist (pist : Pist) : Option Json := do
  let tank ← pist.tank
  let tovar ← tank.tovar
  return .object
    ([jsonKey "id_pist" (.int pist.idPist), jsonKey "name" (.string tovar.name),
      jsonKey "price" (.string (cutPrice (floatText tovar.price)))] ++ colorMembers tovar.color)

/-- A pump on the main page. -/
def mainPump (screen : ScreenSize) (trk : Trk) : Option Json := do
  let pists ← trk.pists.mapM mainPist
  return .object
    [jsonKey "id" (.int trk.idTrk), jsonKey "x_pos" (percent trk.xPos screen.width),
      jsonKey "y_pos" (percent trk.yPos screen.width),
      jsonKey "scale" (.string (floatText trk.scale)), jsonKey "pist" (.array pists)]

/-- A nozzle on the page of the configuration. -/
def configPist (pist : Pist) : Option Json := do
  let tank ← pist.tank
  let tovar ← tank.tovar
  return .object
    [jsonKey "id_pist" (.int pist.idPist), jsonKey "id_tank" (.int tank.idTank),
      jsonKey "color" (.string (colorText tovar.color)), jsonKey "id_tovar" (.int tovar.idTovar),
      jsonKey "name" (.string tovar.name), jsonKey "price" (.float tovar.price)]

/-- A pump on the page of the configuration. -/
def configPump (trk : Trk) : Option Json := do
  let pists ← trk.pists.mapM configPist
  return .object [jsonKey "id_trk" (.int trk.idTrk), jsonKey "pists" (.array pists)]

/-- A tank on the page of the configuration. -/
def configTank (tank : Tank) : Option Json := do
  let tovar ← tank.tovar
  return .object
    [jsonKey "id_tank" (.int tank.idTank), jsonKey "color" (.string (colorText tovar.color)),
      jsonKey "id_tovar" (.int tovar.idTovar), jsonKey "name" (.string tovar.name),
      jsonKey "price" (.float tovar.price)]

/-! ## The JSON of the requests -/

/-- The elements of a member that is an array; none for a member of another type. -/
def arrayElements (json : Json) (key : String) : Option (List Json) := do
  let value ← json.field key
  return value.elements?.getD []

/-- An element of `trks` in `api_settings_delete`. -/
def deletedTrk (json : Json) : Option Trk := do
  let idTrk ← fieldInt json "id_trk"
  let pists ← arrayElements json "pists"
  let pists ← pists.mapM fun pist => do
    let idPist ← fieldInt pist "id_pist"
    return ({ idPist := idPist } : Pist)
  return { idTrk := idTrk, pists := pists }

/-- The `try` block of `api_settings_delete`. -/
def deleteForm (json : Json) : Option (List Tovar × List Tank × List Trk) := do
  let tovars ← arrayElements json "tovars"
  let tovars ← tovars.mapM fun tovar => do
    let idTovar ← fieldInt tovar "id_tovar"
    return ({ idTovar := idTovar } : Tovar)
  let tanks ← arrayElements json "tanks"
  let tanks ← tanks.mapM fun tank => do
    let idTank ← fieldInt tank "id_tank"
    return ({ idTank := idTank } : Tank)
  let trks ← arrayElements json "trks"
  let trks ← trks.mapM deletedTrk
  return (tovars, tanks, trks)

/-- The conversion of `crow::json::load(text)` to a value of nlohmann.  It goes
through the conversion to `std::string`, which an object, a list and the error value
refuse, so the value is a JSON string. -/
def convertLoaded (floatText : Bytes → Bytes) (text : Bytes) : Option Json :=
  match Crow.load text with
  | none => none
  | some (.list _) => none
  | some (.object _) => none
  | some (.string value) => some (.string value)
  | some value => some (.string (Crow.dump floatText value))

/-- `int(width / (100 / x))` -/
def pixel (width : Int) (x : Rat) : Int :=
  if x = 0 then 0 else Json.truncate (width / (100 / x))

section Pages

variable (pl : Platform)

/-- `std::stoi(value.dump(true))` -/
def dumpedInt (value : Json) : Option Int := pl.dump value >>= stoi

/-- `std::stof` of a dumped value, with 0 for the empty text. -/
def dumpedFloat (value : Json) : Option Rat := do
  let text ← pl.dump value
  pl.stof (if text = [] then ascii "0" else text)

/-- An element of `objects` in `api_trk_save`. -/
def savedTrk (width : Int) (object : Json) : Option Trk := do
  let idTrk ← object.field "id" >>= dumpedInt pl
  let x ← object.field "x" >>= dumpedFloat pl
  let y ← object.field "y" >>= dumpedFloat pl
  let scale ← object.field "scale" >>= pl.dump >>= pl.stof
  return { idTrk := idTrk, xPos := pixel width x, yPos := pixel width y, scale := scale }

/-- What `api_trk_save` reads of its JSON value. -/
def trkSaveForm (json : Json) : Option (Int × Int × List Trk) := do
  let screen ← json.field "screen_scale"
  let width ← screen.field "width" >>= dumpedInt pl
  let height ← screen.field "height" >>= dumpedInt pl
  let objects ← json.field "objects"
  let trks ← (List.range objects.size).mapM fun i => objects.item i >>= savedTrk pl width
  return (width, height, trks)

/-- `res.body = ctx.dump(); res.end()` -/
def replyJson (ctx : Json) : Prog Unit := do
  let text ← orThrow (pl.dump ctx)
  setBody text
  endResponse

/-- The main page of both classes. -/
def mainPage (admin : List (Bytes × Json)) : Prog Unit := do
  htmlHeader
  let all ← getTrksWithAll pl
  let pumps ← orUndefined (all.trks.mapM (mainPump all.screen))
  let width : List (Bytes × Json) :=
    if all.trks = [] then [] else [jsonKey "screen_width" (.int all.screen.width)]
  let ctx ← reloadContext pl (.object (admin ++ jsonKey "pump" (.array pumps) :: width))
  writePage pl "public/old/serv.html" ctx

/-- The end of a shift in both classes. -/
def endShift : Prog Unit := do
  smenaClose pl
  redirect (ascii "/")
  forgetToken
  endResponse

/-- The reply that sends a client to the login page. -/
def sendAway : Prog Unit := do
  redirect (ascii "/")
  forgetToken
  endResponse

end Pages

/-! ## The administrator -/

namespace Admin

variable (pl : Platform)

/-- `main_trk` -/
def mainTrk : Prog Unit := mainPage pl [jsonKey "admin" (.bool true)]

/-- `api_trk_save` -/
def apiTrkSave (req : Request) : Prog Unit := do
  jsonHeader
  let json ← orThrow (convertLoaded pl.floatText req.body)
  let (width, height, trks) ← orThrow (trkSaveForm pl json)
  saveTrks pl trks width height
  let connected ← isConnect
  if connected = false then
    replyStatus "not"
  else
    replyStatus "yes"

/-- `api_out` -/
def apiOut : Prog Unit := sendAway

/-- `api_outshift` -/
def apiOutshift : Prog Unit := endShift pl

/-- `api_settings_get` -/
def apiSettingsGet : Prog Unit := do
  jsonHeader
  let all ← getTrksWithAll pl
  replyJson pl (contextOf
    (arrayMember "tovars" (all.tovars.map tovarJson) ++
      arrayMember "tanks" (all.tanks.map tankJson) ++
      arrayMember "trks" (all.trks.map trkJson)))

/-- `api_settings_delete` -/
def apiSettingsDelete (req : Request) : Prog Unit := do
  jsonHeader
  let json ← orThrow (pl.parse req.body)
  match deleteForm json with
  | none => replyStatus "error"
  | some (tovars, tanks, trks) =>
      tovars.forM (deleteTovar pl)
      tanks.forM (deleteTank pl)
      trks.forM fun trk => deleteTrk pl trk true
      replyStatus "success"

/-- `api_settings_set` -/
def apiSettingsSet (req : Request) : Prog Unit := do
  jsonHeader
  let json ← orThrow (pl.parse req.body)
  let tovars ← orThrow (arrayElements json "tovars")
  let tovars := tovars.map jsonToTovar
  if tovars.any (·.idTovar = -1) then
    replyStatus "error"
  else
    let tanks ← orThrow (arrayElements json "tanks")
    let tanks := tanks.map jsonToTank
    if tanks.any (·.idTank = -1) then
      replyStatus "error"
    else
      let trks ← orThrow (arrayElements json "trks")
      let trks := trks.map jsonToTrk
      if trks.any (·.idTrk = -1) then
        replyStatus "error"
      else
        tovars.forM (setTovar pl)
        tanks.forM (setTank pl)
        trks.forM (setTrk pl)
        replyStatus "success"

/-- `api_settings_tanks_get` -/
def apiSettingsTanksGet : Prog Unit := do
  jsonHeader
  let tanks ← getTanks
  replyJson pl (contextOf (arrayMember "tanks" (tanks.map tankJson)))

/-- `api_settings_tovars_get` -/
def apiSettingsTovarsGet : Prog Unit := do
  jsonHeader
  let tovars ← getTovars
  replyJson pl (contextOf (arrayMember "tovars" (tovars.map tovarJson)))

/-- `api_settings_trks_get` -/
def apiSettingsTrksGet : Prog Unit := do
  jsonHeader
  let trks ← getTrks pl
  replyJson pl (contextOf (arrayMember "trks" (trks.map fun trk => .object (trkMembers trk))))

/-- `api_settings_kasa_get` -/
def apiSettingsKasaGet : Prog Unit := do
  jsonHeader
  endResponse

/-- `main_settings` -/
def mainSettings : Prog Unit := do
  htmlHeader
  writePage pl "public/old/settings_azs.html" (.object [(ascii "admin", .bool true)])

/-- `old_main_settings_config`; without pumps it accesses `trks[0]` all the same. -/
def oldMainSettingsConfig : Prog Unit := do
  let all ← getTrksWithAll pl
  if all.trks = [] then
    throw .undefined
  let pumps ← orUndefined (all.trks.mapM configPump)
  let tanks ← orUndefined (all.tanks.mapM configTank)
  htmlHeader
  let ctx ← reloadContext pl
    (.object [jsonKey "pumps" (.array pumps), jsonKey "tanks" (.array tanks)])
  writePage pl "public/old/configuration.html" ctx

/-- `main_settings_config` -/
def mainSettingsConfig : Prog Unit := do
  htmlHeader
  writePage pl "index.html" .null

/-- The overrides of `Admin`. -/
def call (req : Request) : ClientCall → Prog Unit
  | .mainTrk => mainTrk pl
  | .mainSettings => mainSettings pl
  | .mainSettingsConfig => mainSettingsConfig pl
  | .oldMainSettingsConfig => oldMainSettingsConfig pl
  | .apiTrkSave => apiTrkSave pl req
  | .apiOut => apiOut
  | .apiOutshift => apiOutshift pl
  | .apiSettingsGet => apiSettingsGet pl
  | .apiSettingsSet => apiSettingsSet pl req
  | .apiSettingsDelete => apiSettingsDelete pl req
  | .apiSettingsTanksGet => apiSettingsTanksGet pl
  | .apiSettingsTovarsGet => apiSettingsTovarsGet pl
  | .apiSettingsTrksGet => apiSettingsTrksGet pl
  | .apiSettingsKasaGet => apiSettingsKasaGet

/-- `Controller` -/
def controller (req : Request) : Prog Unit :=
  match findFunc req.url with
  | some func => call pl req func
  | none => return ⟨⟩

end Admin

/-! ## The user -/

namespace User

variable (pl : Platform)

/-- `main_trk` -/
def mainTrk : Prog Unit := mainPage pl []

/-- `api_out` -/
def apiOut : Prog Unit := sendAway

/-- `api_outshift` -/
def apiOutshift : Prog Unit := endShift pl

/-- `api_trk_save` -/
def apiTrkSave : Prog Unit := do
  redirect (ascii "/old/main")
  endResponse

/-- `main_settings` -/
def mainSettings : Prog Unit := do
  htmlHeader
  writePage pl "public/old/settings_azs.html" .null

/-- The overrides of `User`; the ones that are not listed send the user away. -/
def call : ClientCall → Prog Unit
  | .mainTrk => mainTrk pl
  | .mainSettings => mainSettings pl
  | .apiTrkSave => apiTrkSave
  | .apiOut => apiOut
  | .apiOutshift => apiOutshift pl
  | .mainSettingsConfig => sendAway
  | .oldMainSettingsConfig => sendAway
  | .apiSettingsGet => sendAway
  | .apiSettingsSet => sendAway
  | .apiSettingsDelete => sendAway
  | .apiSettingsTanksGet => sendAway
  | .apiSettingsTovarsGet => sendAway
  | .apiSettingsTrksGet => sendAway
  | .apiSettingsKasaGet => sendAway

/-- `Controller` -/
def controller (req : Request) : Prog Unit :=
  match findFunc req.url with
  | some func => call pl func
  | none => return ⟨⟩

end User

end Server
end AzsServer
