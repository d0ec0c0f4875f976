import AzsServer.Server.Shifts

/-!
# Products, tanks and pumps

The values that the settings pages exchange with the database, how they are read
from JSON, and the methods of `Azs_Database` that load and store them.  A pointer
to a loaded product or tank is the value behind it, or `none` for `NULL`.
-/

namespace AzsServer
namespace Server

open Core

/-! ## Values -/

/-- `Color` -/
structure Color where
  r : Int := 0
  g : Int := 0
  b : Int := 0
deriving DecidableEq

/-- `Tovar`, a product. -/
structure Tovar where
  idTovar : Int := -1
  price : Rat := -1
  name : Bytes := []
  nameP : Bytes := []
  namePF : Bytes := []
  namePV : Bytes := []
  color : Color := {}
deriving DecidableEq

/-- `Tank` -/
structure Tank where
  idTank : Int := -1
  idTovar : Int := -1
  volume : Int := -1
  remain : Int := -1
  tovar : Option Tovar := none
deriving DecidableEq

/-- `Pist`, a nozzle. -/
structure Pist where
  idPist : Int := -1
  idTank : Int := -1
  tank : Option Tank := none
deriving DecidableEq

/-- `Trk`, a pump. -/
structure Trk where
  idTrk : Int := -1
  xPos : Int := 0
  yPos : Int := 0
  scale : Rat := 100
  pists : List Pist := []
deriving DecidableEq

/-- `Screen_Size` -/
structure ScreenSize where
  width : Int := 0
  height : Int := 0
deriving DecidableEq

/-- `c & 0xFF` -/
def lowByte (c : Int) : Nat := (c % 256).toNat

/-- `get_rgb` -/
def getRgb (r g b : Int) : Nat := lowByte r <<< 16 ||| lowByte g <<< 8 ||| lowByte b

/-- The components of a color as the methods unpack them. -/
def unpackColor (color : Int) : Color :=
  ⟨lowByte (color >>> (16 : Nat)), lowByte (color >>> (8 : Nat)), lowByte color⟩

example : unpackColor (getRgb 1 255 256) = ⟨1, 255, 0⟩ := by decide

theorem lowByte_lt (c : Int) : lowByte c < 256 := by
  unfold lowByte
  omega

theorem getRgb_eq (r g b : Int) :
    getRgb r g b = lowByte r * 65536 + lowByte g * 256 + lowByte b := by
  have hG := lowByte_lt g
  have hB := lowByte_lt b
  -- the bits of the components do not overlap
  have hFirst : lowByte r <<< 16 ||| lowByte g <<< 8 = (lowByte r * 256 + lowByte g) <<< 8 := by
    have hFits : lowByte g <<< 8 < 2 ^ 16 := by
      rw [Nat.shiftLeft_eq]
      omega
    rw [← Nat.shiftLeft_add_eq_or_of_lt hFits]
    simp only [Nat.shiftLeft_eq]
    ring
  have hFits : lowByte b < 2 ^ 8 := by omega
  unfold getRgb
  rw [hFirst, ← Nat.shiftLeft_add_eq_or_of_lt hFits, Nat.shiftLeft_eq]
  ring

/-- A color survives the way through its components. -/
theorem getRgb_unpackColor {color : Int} (hLow : 0 ≤ color) (hHigh : color < 2 ^ 24) :
    (getRgb (unpackColor color).r (unpackColor color).g (unpackColor color).b : Int) = color := by
  rw [getRgb_eq]
  simp only [unpackColor, lowByte, Int.shiftRight_eq_div_pow]
  norm_num at *
  omega

/-- Components that are bytes survive the way through the color. -/
theorem unpackColor_getRgb {r g b : Int} (hR : 0 ≤ r ∧ r < 256) (hG : 0 ≤ g ∧ g < 256)
    (hB : 0 ≤ b ∧ b < 256) : unpackColor (getRgb r g b) = ⟨r, g, b⟩ := by
  rw [getRgb_eq]
  simp only [unpackColor, lowByte, Int.shiftRight_eq_div_pow, Color.mk.injEq]
  norm_num at *
  omega

/-! ## Reading JSON -/

section Reading

open Nlohmann

/-- A member as an integer. -/
def fieldInt (json : Json) (key : String) : Option Int := json.field key >>= Json.toInt?

/-- A member as a number. -/
def fieldFloat (json : Json) (key : String) : Option Rat := json.field key >>= Json.toFloat?

/-- A member as a string. -/
def fieldString (json : Json) (key : String) : Option Bytes := json.field key >>= Json.toString?

/-- The `try` block of `json_to_tovar`. -/
def readTovar (json : Json) : Option Tovar := do
  let idTovar ← fieldInt json "id_tovar"
  let name ← fieldString json "name"
  let nameP ← fieldString json "name_p"
  let namePF ← fieldString json "name_p_f"
  let namePV ← fieldString json "name_p_v"
  let price ← fieldFloat json "price"
  let color ← json.field "color"
  let r ← fieldInt color "r"
  let g ← fieldInt color "g"
  let b ← fieldInt color "b"
  return ⟨idTovar, price, name, nameP, namePF, namePV, ⟨r, g, b⟩⟩

/-- `json_to_tovar` -/
def jsonToTovar (json : Json) : Tovar := (readTovar json).getD {}

/-- The `try` block of `json_to_tank`. -/
def readTank (json : Json) : Option Tank := do
  let idTank ← fieldInt json "id_tank"
  let idTovar ← fieldInt json "id_tovar"
  let remain ← fieldInt json "remain"
  let volume ← fieldInt json "volume"
  return ⟨idTank, idTovar, volume, remain, none⟩

/-- `json_to_tank` -/
def jsonToTank (json : Json) : Tank := (readTank json).getD {}

/-- A nozzle of `json_to_trk`. -/
def readPist (pists : Json) (i : Nat) : Option Pist := do
  let pist ← pists.item i
  let idPist ← fieldInt pist "id_pist"
  let idTank ← fieldInt pist "id_tank"
  return ⟨idPist, idTank, none⟩

/-- The `try` block of `json_to_trk`. -/
def readTrk (json : Json) : Option Trk := do
  let pists ← json.field "pists"
  let pists ← (List.range pists.size).mapM (readPist pists)
  let idTrk ← fieldInt json "id_trk"
  let xPos ← fieldInt json "x_pos"
  let yPos ← fieldInt json "y_pos"
  let scale ← fieldFloat json "scale"
  return ⟨idTrk, xPos, yPos, scale, pists⟩

/-- `json_to_trk` -/
def jsonToTrk (json : Json) : Trk := (readTrk json).getD {}

end Reading

/-! ## Loading -/

/-- The first token of `strtok` and the text behind its delimiter. -/
def strtok (delimiter : UInt8) (text : Bytes) : Option (Bytes × Bytes) :=
  match text.dropWhile (· = delimiter) with
  | [] => none
  | token =>
      some (token.takeWhile (· ≠ delimiter), (token.dropWhile (· ≠ delimiter)).drop 1)

/-- The two numbers of `cnst_ScreenSize`. -/
def readScreenSize (size : Bytes) : Option ScreenSize := do
  let (width, rest) ← strtok commaByte (cStr size)
  let width ← stoi width
  let (height, _) ← strtok spaceByte rest
  let height ← stoi height
  return ⟨width, height⟩

/-- The statement for `cnst_ScreenSize`. -/
def screenSizeSql : Bytes := ascii "SELECT * FROM loc_const WHERE descr_var=\"cnst_ScreenSize\";"

/-- The rows that it selects. -/
def screenSizeRows (t : Mysql.Tables) : List Mysql.LocConst :=
  t.locConst.filter (·.descrVar = ascii "cnst_ScreenSize")

/-- The statement for the products. -/
def tovarSql : Bytes := ascii "SELECT * FROM tovar ORDER BY NN;"

/-- The rows that it selects. -/
def tovarRows (t : Mysql.Tables) : List Mysql.TovarRow :=
  t.tovar.mergeSort fun a b => decide (a.nn ≤ b.nn)

/-- The statement for the tanks. -/
def tankSql : Bytes := ascii "SELECT * FROM tank ORDER BY NN;"

/-- The rows that it selects. -/
def tankRows (t : Mysql.Tables) : List Mysql.TankRow :=
  t.tank.mergeSort fun a b => decide (a.nn ≤ b.nn)

/-- A row of the join of `com_trk` and `trk`. -/
structure PistRow where
  idTrk : Int
  xPos : Int
  yPos : Int
  scale : Rat
  idPist : Int
  idTank : Int
deriving DecidableEq

/-- The statement for the pumps. -/
def trkSql (azsId : Bytes) : Bytes :=
  ascii "SELECT com_trk.id_trk, com_trk.x_pos, com_trk.y_pos, com_trk.scale, " ++
    ascii "trk.id_trk, trk.id_pist, trk.id_tank FROM com_trk INNER JOIN trk ON " ++
    ascii "com_trk.id_trk = trk.id_trk WHERE com_trk.id_azs='" ++ azsId ++
    ascii "' ORDER BY com_trk.id_trk;"

/-- The rows that it selects. -/
def pistRows (station : Int) (t : Mysql.Tables) : List PistRow :=
  let joined := (t.comTrk.filter (·.idAzs = station)).flatMap fun com =>
    (t.trk.filter (·.idTrk = com.idTrk)).map fun row =>
      ⟨com.idTrk, com.xPos, com.yPos, com.scale, row.idPist, row.idTank⟩
  joined.mergeSort fun a b => decide (a.idTrk ≤ b.idTrk)

/-- A product as `get_Tovars` loads it, without its price. -/
def loadTovar (row : Mysql.TovarRow) : Tovar where
  idTovar := row.idTovar
  name := row.name
  nameP := row.nameP
  namePF := row.namePF
  namePV := row.namePV
  color := unpackColor row.color

/-- A product as `get_Trks_with_all` loads it. -/
def loadTovarPrice (row : Mysql.TovarRow) : Tovar :=
  { loadTovar row with price := row.price }

/-- A tank as `get_Tanks` loads it. -/
def loadTank (row : Mysql.TankRow) : Tank :=
  { idTank := row.idTank, idTovar := row.idTovar, volume := row.volume, remain := row.remain }

/-- A tank as `get_Trks_with_all` loads it. -/
def loadTankTovar (tovars : List Tovar) (row : Mysql.TankRow) : Tank :=
  { loadTank row with tovar := tovars.find? (·.idTovar = row.idTovar) }

/-- The variables of the loop over the joined rows.  `pist` and `trk` live outside
the loop and keep what the row before has left in them. -/
structure TrkLoop where
  trks : List Trk := []
  pist : Pist := {}
  trk : Trk := {}
  lastIdTrk : Int := -1
deriving DecidableEq

/-- The body of the loop; `none` is an access to `trks` while it is empty. -/
def trkLoopStep (tanks : List Tank) (s : TrkLoop) (row : PistRow) : Option TrkLoop :=
  let pist : Pist :=
    { idPist := row.idPist
      idTank := row.idTank
      tank := (tanks.find? (·.idTank = row.idTank)).or s.pist.tank }
  if row.idTrk = s.lastIdTrk then
    match s.trks.getLast? with
    | none => none
    | some last =>
        let last := { last with pists := last.pists ++ [pist] }
        some { s with trks := s.trks.dropLast ++ [last], pist := pist }
  else
    let trk : Trk := ⟨row.idTrk, row.xPos, row.yPos, row.scale, s.trk.pists ++ [pist]⟩
    some
      { trks := s.trks ++ [trk], pist := pist, trk := { trk with pists := [] },
        lastIdTrk := row.idTrk }

/-- The pumps that the loop builds. -/
def loadTrks (tanks : List Tank) (rows : List PistRow) : Option (List Trk) :=
  (rows.foldlM (trkLoopStep tanks) {}).map (·.trks)

/-- What `get_Trks_with_all` fills. -/
structure TrksWithAll where
  screen : ScreenSize := {}
  tovars : List Tovar := []
  tanks : List Tank := []
  trks : List Trk := []
deriving DecidableEq

section Methods

variable (pl : Platform)

/-- `get_Tovars` -/
def getTovars : Prog (List Tovar) :=
  guarded
    (do
      let res ← executeQuery tovarSql tovarRows
      return res.map loadTovar)
    []

/-- `get_Tanks` -/
def getTanks : Prog (List Tank) :=
  guarded
    (do
      let res ← executeQuery tankSql tankRows
      return res.map loadTank)
    []

/-- `get_Trks`, whose nozzles get no tank. -/
def getTrks : Prog (List Trk) := do
  let id ← azsId
  guarded
    (do
      let res ← executeQuery (trkSql id) (pistRows (pl.mysql.number id))
      orUndefined (loadTrks [] res))
    []

/-- The screen size of `get_Trks_with_all`; the last row counts. -/
def getScreenSize : Prog ScreenSize :=
  guarded
    (do
      let res ← executeQuery screenSizeSql screenSizeRows
      let sizes ← orThrow (res.mapM fun row => readScreenSize row.value)
      return sizes.getLast?.getD {})
    {}

/-- `get_Trks_with_all` -/
def getTrksWithAll : Prog TrksWithAll := do
  let screen ← getScreenSize
  let tovars ← guarded
    (do
      let res ← executeQuery tovarSql tovarRows
      return res.map loadTovarPrice)
    []
  let tanks ← guarded
    (do
      let res ← executeQuery tankSql tankRows
      return res.map (loadTankTovar tovars))
    []
  let id ← azsId
  let trks ← guarded
    (do
      let res ← executeQuery (trkSql id) (pistRows (pl.mysql.number id))
      orUndefined (loadTrks tanks res))
    []
  return ⟨screen, tovars, tanks, trks⟩

/-! ## Storing -/

/-- `executeSql` -/
def executeSql (u : Mysql.Update) : Prog Bool :=
  guarded (executeUpdate pl u >>= fun _ => pure true) false

/-- `save_Trks` -/
def saveTrks (trks : List Trk) (screenWidth screenHeight : Int) : Prog Unit := do
  guarded (executeUpdate pl (.screenSize screenWidth screenHeight)) ⟨⟩
  trks.forM fun trk =>
    guarded (executeUpdate pl (.trkPosition trk.scale trk.xPos trk.yPos trk.idTrk)) ⟨⟩

/-- `set_Tovar` -/
def setTovar (tovar : Tovar) : Prog Unit :=
  guarded
    (executeUpdate pl (.setTovar tovar.idTovar tovar.price tovar.name tovar.nameP
      tovar.namePF tovar.namePV (getRgb tovar.color.r tovar.color.g tovar.color.b)))
    ⟨⟩

/-- The statement for the largest id of a nozzle. -/
def maxIdPistSql (idTrk : Int) : Bytes :=
  ascii "SELECT MAX(id_pist) AS max_id_pist FROM trk WHERE id_trk=" ++ intToString idTrk ++
    ascii ";"

/-- Its only row; `getInt` reads a null as 0. -/
def maxIdPistRows (idTrk : Int) (t : Mysql.Tables) : List Int :=
  [(((t.trk.filter (·.idTrk = idTrk)).map (·.idPist)).max?).getD 0]

/-- The loop of `set_Trk` over the nozzles; `n` counts the new ones. -/
def setPists (idTrk maxIdPist : Int) : Int → List Pist → Prog Unit
  | _, [] => return ⟨⟩
  | n, pist :: rest => do
      if pist.idPist = 0 then
        executeUpdate pl (.insertTrk idTrk (maxIdPist + (n + 1)) pist.idTank)
        setPists idTrk maxIdPist (n + 1) rest
      else
        executeUpdate pl (.updateTrk idTrk pist.idPist pist.idTank)
        setPists idTrk maxIdPist n rest

/-- `set_Trk` -/
def setTrk (trk : Trk) : Prog Unit :=
  guarded
    (do
      executeUpdate pl (.setComTrk trk.idTrk trk.xPos trk.yPos trk.scale)
      let res ← executeQuery (maxIdPistSql trk.idTrk) (maxIdPistRows trk.idTrk)
      let maxIdPist := res.headD 0
      setPists pl trk.idTrk maxIdPist 0 trk.pists)
    ⟨⟩

/-- `set_Tank` -/
def setTank (tank : Tank) : Prog Unit :=
  guarded (executeUpdate pl (.setTank tank.idTank tank.idTovar tank.volume tank.remain)) ⟨⟩

/-- `delete_Tovar` -/
def deleteTovar (tovar : Tovar) : Prog Unit := discard (executeSql pl (.deleteTovar tovar.idTovar))

/-- `delete_Trk` -/
def deleteTrk (trk : Trk) (smartDelete : Bool) : Prog Unit := do
  if smartDelete = false then
    discard (executeSql pl (.deleteComTrk trk.idTrk))
    discard (executeSql pl (.deleteTrk trk.idTrk))
  else if trk.pists = [] then
    discard (executeSql pl (.deleteComTrk trk.idTrk))
  else
    trk.pists.forM fun pist => discard (executeSql pl (.deletePist trk.idTrk pist.idPist))

/-- `delete_Tank` -/
def deleteTank (tank : Tank) : Prog Unit := discard (executeSql pl (.deleteTank tank.idTank))

end Methods

end Server
end AzsServer
