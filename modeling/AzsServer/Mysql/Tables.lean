import AzsServer.Core.Bytes
import AzsServer.Library.RowTable

/-!
# The tables of a MySQL database of the station

The rows carry the columns that the server reads or writes.  `smena` has the
auto-increment key `NSmen`; the rows of the other tables are listed in the order
in which the server delivers them.  Prices and scales are exact decimals.
-/

namespace AzsServer
namespace Mysql

open Library

/-- A row of `loc_const`. -/
structure LocConst where
  descrVar : Bytes
  value : Bytes
deriving DecidableEq

/-- A row of `loc_users`. -/
structure LocUser where
  idUser : Int
  password : Bytes
  idStation : Int
deriving DecidableEq

/-- A row of `ref_users`. -/
structure RefUser where
  idUser : Int
  user : Bytes
deriving DecidableEq

/-- A row of `smena`, a shift. -/
structure Smena where
  nn : Int
  idAzs : Int
  smStart : Bytes
  smEnd : Bytes
  idOperator : Int
  status : Int
  idPpo : Int
  znum : Int
deriving DecidableEq

/-- A row of `tovar`, a product. -/
structure TovarRow where
  nn : Int
  idTovar : Int
  name : Bytes
  nameP : Bytes
  namePF : Bytes
  namePV : Bytes
  price : Rat
  color : Int
deriving DecidableEq

/-- A row of `tank`. -/
structure TankRow where
  nn : Int
  idTank : Int
  idTovar : Int
  volume : Int
  remain : Int
deriving DecidableEq

/-- A row of `com_trk`, a pump. -/
structure ComTrkRow where
  idTrk : Int
  idAzs : Int
  xPos : Int
  yPos : Int
  scale : Rat
deriving DecidableEq

/-- A row of `trk`, a nozzle of a pump. -/
structure TrkRow where
  idTrk : Int
  idPist : Int
  idTank : Int
deriving DecidableEq

/-- The tables. -/
structure Tables where
  locConst : List LocConst := []
  locUsers : List LocUser := []
  refUsers : List RefUser := []
  smena : RowTable Smena := RowTable.empty
  tovar : List TovarRow := []
  tank : List TankRow := []
  comTrk : List ComTrkRow := []
  trk : List TrkRow := []
deriving DecidableEq

end Mysql
end AzsServer
