import AzsServer.Core.Number
import AzsServer.Mysql.Tables

/-!
# The statements that change a MySQL database

Every statement of the server that is no `SELECT` is a value of `Update`; its
text is what the server sends, its effect is what the text means to MySQL.  A
name of a product that contains a double quote or a backslash can give a
statement another meaning; what the server then does is a parameter.
-/

namespace AzsServer
namespace Mysql

open Core Library

/-- What is left open about MySQL.  `number` is the value of the station id as a
numeral; `other` is the table `tovar` after an `UPDATE` of it whose names do not
stay inside their quotes, `none` for an error. -/
structure Engine where
  number : Bytes → Int
  other : Tables → Bytes → Option (List TovarRow)

/-- The statements. -/
inductive Update where
  | smenaChangeOperator (idOperator idSmena : Int)
  | smenaClose (timeNow : Bytes) (lastId : Int)
  | smenaAddOperator (nn : Int) (azsId timeNow : Bytes) (idOperator : Int)
  | screenSize (width height : Int)
  | trkPosition (scale : Rat) (xPos yPos idTrk : Int)
  | setTovar (idTovar : Int) (price : Rat) (name nameP namePF namePV : Bytes) (color : Nat)
  | setComTrk (idTrk xPos yPos : Int) (scale : Rat)
  | insertTrk (idTrk idPist idTank : Int)
  | updateTrk (idTrk idPist idTank : Int)
  | setTank (idTank idTovar volume remain : Int)
  | deleteTovar (idTovar : Int)
  | deleteComTrk (idTrk : Int)
  | deleteTrk (idTrk : Int)
  | deletePist (idTrk idPist : Int)
  | deleteTank (idTank : Int)
deriving DecidableEq

/-- The text that the server sends. -/
def Update.sql : Update → Bytes
  | .smenaChangeOperator idOperator idSmena =>
      ascii "UPDATE smena SET id_operator=" ++ intToString idOperator ++
        ascii " WHERE NSmen=" ++ intToString idSmena ++ ascii ";"
  | .smenaClose timeNow lastId =>
      ascii "UPDATE smena SET status=0, sm_end=\"" ++ timeNow ++
        ascii "\"  WHERE NSmen=" ++ intToString lastId ++ ascii ";"
  | .smenaAddOperator nn azsId timeNow idOperator =>
      ascii "INSERT INTO smena " ++
        ascii "(NN,id_azs,sm_start,sm_end,id_operator,status,id_ppo,znum) VALUES (" ++
        intToString nn ++ ascii "," ++ azsId ++ ascii ",'" ++ timeNow ++ ascii "','" ++
        timeNow ++ ascii "'," ++ intToString idOperator ++ ascii ",1,10,10);"
  | .screenSize width height =>
      ascii "UPDATE loc_const SET value=\"" ++ intToString width ++ ascii "," ++
        intToString height ++ ascii "\" WHERE descr_var=\"cnst_ScreenSize\";"
  | .trkPosition scale xPos yPos idTrk =>
      ascii "UPDATE com_trk SET scale=" ++ floatText scale ++ ascii ", x_pos=" ++
        intToString xPos ++ ascii ", y_pos=" ++ intToString yPos ++ ascii " WHERE id_trk=" ++
        intToString idTrk ++ ascii ";"
  | .setTovar idTovar price name nameP namePF namePV color =>
      ascii "UPDATE tovar SET id_tovar=" ++ intToString idTovar ++ ascii ", price=" ++
        floatToString price 2 ++ ascii ", name=\"" ++ name ++ ascii "\", name_p=\"" ++
        nameP ++ ascii "\", name_p_f=\"" ++ namePF ++ ascii "\", name_p_v=\"" ++ namePV ++
        ascii "\", color=" ++ natToString color ++ ascii " WHERE id_tovar=" ++
        intToString idTovar ++ ascii ";"
  | .setComTrk idTrk xPos yPos scale =>
      ascii "UPDATE com_trk SET id_trk=" ++ intToString idTrk ++ ascii ", x_pos=" ++
        intToString xPos ++ ascii ", y_pos=" ++ intToString yPos ++ ascii ", scale=" ++
        floatText scale ++ ascii " WHERE id_trk=" ++ intToString idTrk ++ ascii ";"
  | .insertTrk idTrk idPist idTank =>
      ascii "INSERT INTO trk (id_trk,id_pist,id_tank) VALUES (" ++ intToString idTrk ++
        ascii ", " ++ intToString idPist ++ ascii ", " ++ intToString idTank ++ ascii ");"
  | .updateTrk idTrk idPist idTank =>
      ascii "UPDATE trk SET id_trk=" ++ intToString idTrk ++ ascii ", id_pist=" ++
        intToString idPist ++ ascii ", id_tank=" ++ intToString idTank ++
        ascii " WHERE id_trk=" ++ intToString idTrk ++ ascii " AND id_pist=" ++
        intToString idPist ++ ascii ";"
  | .setTank idTank idTovar volume remain =>
      ascii "UPDATE tank SET id_tank=" ++ intToString idTank ++ ascii ", id_tovar=" ++
        intToString idTovar ++ ascii ", volume=" ++ intToString volume ++
        ascii ", remain=" ++ intToString remain ++ ascii " WHERE id_tank=" ++
        intToString idTank ++ ascii ";"
  | .deleteTovar idTovar =>
      ascii "DELETE FROM tovar WHERE id_tovar=" ++ intToString idTovar ++ ascii ";"
  | .deleteComTrk idTrk =>
      ascii "DELETE FROM com_trk WHERE id_trk=" ++ intToString idTrk ++ ascii ";"
  | .deleteTrk idTrk =>
      ascii "DELETE FROM trk WHERE id_trk=" ++ intToString idTrk ++ ascii ";"
  | .deletePist idTrk idPist =>
      ascii "DELETE FROM trk WHERE id_trk=" ++ intToString idTrk ++ ascii " AND id_pist=" ++
        intToString idPist ++ ascii ";"
  | .deleteTank idTank =>
      ascii "DELETE FROM tank WHERE id_tank=" ++ intToString idTank ++ ascii ";"

/-- A text that MySQL reads as itself between two double quotes. -/
def Plain (text : Bytes) : Bool := text.all fun c => c != 34 && c != 92

/-- The rows of `tovar` after an `UPDATE` whose names stay inside their quotes. -/
def setTovarRows (rows : List TovarRow) (idTovar : Int) (price : Rat)
    (name nameP namePF namePV : Bytes) (color : Nat) : List TovarRow :=
  rows.map fun row =>
    if row.idTovar = idTovar then
      ⟨row.nn, row.idTovar, name, nameP, namePF, namePV, fixedValue 2 price, color⟩
    else row

/-- The effect of a statement that the server hands to MySQL; `none` is an error. -/
def Update.run (engine : Engine) (t : Tables) : Update → Option Tables
  | .smenaChangeOperator idOperator idSmena =>
      some { t with smena := t.smena.updateId idSmena ({ · with idOperator := idOperator }) }
  | .smenaClose timeNow lastId =>
      some { t with
        smena := t.smena.updateId lastId ({ · with status := 0, smEnd := timeNow }) }
  | .smenaAddOperator nn azsId timeNow idOperator =>
      let row : Smena :=
        ⟨nn, engine.number azsId, timeNow, timeNow, idOperator, 1, 10, 10⟩
      some { t with smena := t.smena.insert row }
  | .screenSize width height =>
      some { t with locConst := t.locConst.map fun row =>
        if row.descrVar = ascii "cnst_ScreenSize" then
          { row with value := intToString width ++ ascii "," ++ intToString height }
        else row }
  | .trkPosition scale xPos yPos idTrk =>
      some { t with comTrk := t.comTrk.map fun row =>
        if row.idTrk = idTrk then
          { row with scale := fixedValue 6 scale, xPos := xPos, yPos := yPos }
        else row }
  | .setTovar idTovar price name nameP namePF namePV color =>
      if Plain name && Plain nameP && Plain namePF && Plain namePV then
        some { t with
          tovar := setTovarRows t.tovar idTovar price name nameP namePF namePV color }
      else
        (engine.other t
          (Update.sql (.setTovar idTovar price name nameP namePF namePV color))).map
            fun rows => { t with tovar := rows }
  | .setComTrk idTrk xPos yPos scale =>
      some { t with comTrk := t.comTrk.map fun row =>
        if row.idTrk = idTrk then
          { row with xPos := xPos, yPos := yPos, scale := fixedValue 6 scale }
        else row }
  | .insertTrk idTrk idPist idTank =>
      some { t with trk := t.trk ++ [⟨idTrk, idPist, idTank⟩] }
  | .updateTrk idTrk idPist idTank =>
      some { t with trk := t.trk.map fun row =>
        if row.idTrk = idTrk ∧ row.idPist = idPist then { row with idTank := idTank }
        else row }
  | .setTank idTank idTovar volume remain =>
      some { t with tank := t.tank.map fun row =>
        if row.idTank = idTank then
          { row with idTovar := idTovar, volume := volume, remain := remain }
        else row }
  | .deleteTovar idTovar => some { t with tovar := t.tovar.filter (·.idTovar ≠ idTovar) }
  | .deleteComTrk idTrk => some { t with comTrk := t.comTrk.filter (·.idTrk ≠ idTrk) }
  | .deleteTrk idTrk => some { t with trk := t.trk.filter (·.idTrk ≠ idTrk) }
  | .deletePist idTrk idPist =>
      some { t with
        trk := t.trk.filter fun row => ¬ (row.idTrk = idTrk ∧ row.idPist = idPist) }
  | .deleteTank idTank => some { t with tank := t.tank.filter (·.idTank ≠ idTank) }

/-- The statements on the tables that only an administrator may change: `tovar`,
`tank`, `com_trk`, `trk` and `loc_const`. -/
def Update.isSettings : Update → Bool
  | .smenaChangeOperator _ _ => false
  | .smenaClose _ _ => false
  | .smenaAddOperator _ _ _ _ => false
  | _ => true

/-- The statement with which `set_Trk` gives a pump a new nozzle. -/
def Update.insertsNozzle : Update → Bool
  | .insertTrk _ _ _ => true
  | _ => false

end Mysql
end AzsServer
