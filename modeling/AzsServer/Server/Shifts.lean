import AzsServer.Server.Connect

/-!
# Logins and shifts

The methods of `Azs_Database` behind the login page: the password check, the names
of the users, and the shifts of the station.  Each method catches `SQLException`,
clears `isconn`, and returns what it has.
-/

namespace AzsServer
namespace Server

open Core Library

/-- The `try` block of a method, and what the method returns behind its `catch`. -/
def guarded {α : Type} (body : Prog α) (failed : α) : Prog α :=
  catchSql body (disconnected >>= fun _ => pure failed)

theorem guarded_of_ok {α : Type} {body : Prog α} {failed a : α} {w next : World}
    (hRun : body w = .ok a next) : guarded body failed w = .ok a next :=
  catchSql_of_ok hRun

theorem guarded_of_sqlException {α : Type} {body : Prog α} {w next : World} (failed : α)
    (hRun : body w = .error .sqlException next) :
    guarded body failed w = .ok failed (next.mapDb fun db => { db with isconn := false }) :=
  catchSql_of_sqlException hRun

/-! ## Users -/

/-- The statement of `auth_check`. -/
def passwordSql (userid : Int) : Bytes :=
  ascii "SELECT password FROM loc_users WHERE id_user=" ++ intToString userid ++ ascii ";"

/-- The rows that it selects. -/
def passwordRows (userid : Int) (t : Mysql.Tables) : List Mysql.LocUser :=
  t.locUsers.filter (·.idUser = userid)

/-- From this id on a user is an administrator. -/
def firstAdminId : Int := 1000000

/-- `auth_check`: whether the password is right, and the flag `admin`. -/
def authCheck (userid : Int) (password : Bytes) (admin : Bool) : Prog (Bool × Bool) :=
  guarded
    (do
      let res ← executeQuery (passwordSql userid) (passwordRows userid)
      match res with
      | [] => throw .sqlException
      | row :: _ =>
          if row.password = password then
            let admin := admin || decide (firstAdminId ≤ userid)
            let now ← systemNow
            observe (.login userid admin now)
            return (true, admin)
          else
            return (false, admin))
    (false, admin)

/-- `User_Name` -/
structure UserName where
  id : Int := 0
  name : Bytes := []
deriving DecidableEq

/-- The statement of `get_Users_Name`. -/
def usersSql (azsId : Bytes) : Bytes :=
  ascii "SELECT * FROM loc_users INNER JOIN ref_users ON loc_users.id_user = " ++
    ascii "ref_users.id_user WHERE loc_users.id_station='" ++ azsId ++ ascii "';"

/-- The rows that it selects. -/
def usersRows (station : Int) (t : Mysql.Tables) : List UserName :=
  (t.locUsers.filter (·.idStation = station)).flatMap fun user =>
    (t.refUsers.filter (·.idUser = user.idUser)).map fun ref => ⟨user.idUser, ref.user⟩

section Methods

variable (pl : Platform)

/-- `get_Users_Name` -/
def getUsersName : Prog (List UserName) := do
  let id ← azsId
  guarded (executeQuery (usersSql id) (usersRows (pl.mysql.number id))) []

/-! ## Shifts -/

/-- The statement of `smena_bool`. -/
def smenaSql (azsId : Bytes) : Bytes :=
  ascii "SELECT * FROM smena WHERE id_azs='" ++ azsId ++
    ascii "' ORDER BY NSmen DESC LIMIT 1;"

/-- The rows that it selects. -/
def smenaRows (station : Int) (t : Mysql.Tables) : List (Int × Mysql.Smena) :=
  (t.smena.rows.filter (·.2.idAzs = station)).getLast?.toList

/-- `smena_bool(last_id, last_nn)`: the status of the last shift, its key and its
number, from the values that the two variables have. -/
def smenaBoolIds (lastId lastNn : Int) : Prog (Bool × Int × Int) := do
  let id ← azsId
  guarded
    (do
      let res ← executeQuery (smenaSql id) (smenaRows (pl.mysql.number id))
      return res.foldl (fun _ row => (decide (row.2.status ≠ 0), row.1, row.2.nn))
        (false, lastId, lastNn))
    (false, lastId, lastNn)

/-- `smena_bool(userid)`: the status of the last shift and its operator. -/
def smenaBoolUser (userid : Int) : Prog (Bool × Int) := do
  let id ← azsId
  guarded
    (do
      let res ← executeQuery (smenaSql id) (smenaRows (pl.mysql.number id))
      return res.foldl (fun _ row => (decide (row.2.status ≠ 0), row.2.idOperator))
        (false, userid))
    (false, userid)

/-- `smena_change_operator` -/
def smenaChangeOperator (idOperator idSmena : Int) : Prog Unit :=
  guarded (executeUpdate pl (.smenaChangeOperator idOperator idSmena)) ⟨⟩

/-- `smena_close` -/
def smenaClose : Prog Unit :=
  guarded
    (do
      let (_, lastId, _) ← smenaBoolIds pl (-1) (-1)
      let now ← systemNow
      executeUpdate pl (.smenaClose (timetostr pl.zone now) lastId))
    ⟨⟩

/-- `smena_add_operator` -/
def smenaAddOperator (idOperator nn : Int) : Prog Unit :=
  guarded
    (do
      let now ← systemNow
      let id ← azsId
      executeUpdate pl (.smenaAddOperator (nn + 1) id (timetostr pl.zone now) idOperator))
    ⟨⟩

end Methods

end Server
end AzsServer
