import AzsServer.Server.Statements

/-!
# The users of a station

`get_Users_Name` lists the users of this station.  `auth_check` does not ask for the station
and compares only the first row of a user id, whichever station it belongs to.  The two
agree on a user exactly if this first row has the password of every row that the user has
at this station, and there is one.
-/

namespace AzsServer
namespace Server

open Core Library Mysql

/-- `auth_check` returns true. -/
def Accepts (userid : Int) (password : Bytes) (admin : Bool) (w : World) : Prop :=
  ∃ flag next, authCheck userid password admin w = .ok (true, flag) next

/-- `get_Users_Name` lists the user. -/
def Listed (pl : Platform) (userid : Int) (w : World) : Prop :=
  ∃ users next, getUsersName pl w = .ok users next ∧ ∃ user ∈ users, user.id = userid

/-- The rows of a user at a station. -/
def ownRows (station userid : Int) (t : Tables) : List LocUser :=
  t.locUsers.filter fun row => row.idUser = userid ∧ row.idStation = station

/-- The user has the password at this station. -/
def Registered (station userid : Int) (password : Bytes) (t : Tables) : Prop :=
  ∃ row ∈ ownRows station userid t, row.password = password

/-- The first row of the user, if there is one, has the password of all rows at this station,
and the station has one. -/
def FirstRowOfStation (station userid : Int) (t : Tables) : Prop :=
  ∀ first ∈ (passwordRows userid t).head?, ownRows station userid t ≠ [] ∧
    ∀ row ∈ ownRows station userid t, row.password = first.password

section Users

variable {pl : Platform} {con : Connection} {w : World} {station userid : Int} {password : Bytes}
  {admin : Bool} {t : Tables}

theorem mem_ownRows_iff {row : LocUser} : row ∈ ownRows station userid t ↔
    row ∈ t.locUsers ∧ row.idUser = userid ∧ row.idStation = station := by
  simp [ownRows]

theorem mem_passwordRows {row : LocUser} (hMem : row ∈ ownRows station userid t) :
    row ∈ passwordRows userid t := by
  obtain ⟨hRow, hId, -⟩ := mem_ownRows_iff.mp hMem
  exact List.mem_filter.mpr ⟨hRow, decide_eq_true hId⟩

/-- The first row of the id decides. -/
theorem accepts_iff (hServes : Serves con w) :
    Accepts userid password admin w ↔
      ∃ first ∈ (passwordRows userid (w.tables con)).head?, first.password = password := by
  have hQuery := executeQuery_executed (passwordSql userid) (passwordRows userid)
    hServes.toExecutes
  unfold Accepts
  cases hRows : passwordRows userid (w.tables con) with
  | nil =>
      rw [hRows] at hQuery
      have hRun : authCheck userid password admin w = .ok (false, admin) _ :=
        guarded_of_sqlException (false, admin) (bind_of_ok hQuery)
      simp [hRun]
  | cons first rest =>
      rw [hRows] at hQuery
      have hRun : authCheck userid password admin w = guarded (if first.password = password then
          systemNow >>= fun now =>
            observe (.login userid (admin || decide (firstAdminId ≤ userid)) now) >>= fun _ =>
              pure (true, admin || decide (firstAdminId ≤ userid))
          else pure (false, admin) : Prog (Bool × Bool)) (false, admin)
            (w.popSql.observed (.select (passwordSql userid) true)) := by
        unfold authCheck guarded catchSql
        rw [bind_of_ok hQuery]
      rw [hRun]
      by_cases hPassword : first.password = password
      · rw [if_pos hPassword]
        exact iff_of_true ⟨_, _, rfl⟩ ⟨first, rfl, hPassword⟩
      · rw [if_neg hPassword]
        refine iff_of_false ?_ (by simpa using hPassword)
        rintro ⟨flag, next, hAccepted⟩
        cases hAccepted

/-- The page lists the users with a row at this station. -/
theorem listed_iff (hServes : Serves con w)
    (hNamed : ∀ row ∈ (w.tables con).locUsers,
      ∃ ref ∈ (w.tables con).refUsers, ref.idUser = row.idUser) :
    Listed pl userid w ↔ ownRows (w.station pl) userid (w.tables con) ≠ [] := by
  have hQuery := executeQuery_executed (usersSql w.azsDb.azsId) (usersRows (w.station pl))
    hServes.toExecutes
  have hRun : getUsersName pl w = .ok (usersRows (w.station pl) (w.tables con)) _ :=
    guarded_of_ok hQuery
  constructor
  · rintro ⟨users, next, hUsers, user, hMem, rfl⟩
    rw [hRun] at hUsers
    cases hUsers
    obtain ⟨row, hRow, hUser⟩ := List.mem_flatMap.mp hMem
    obtain ⟨ref, -, rfl⟩ := List.mem_map.mp hUser
    obtain ⟨hRow, hStation⟩ := List.mem_filter.mp hRow
    exact List.ne_nil_of_mem (mem_ownRows_iff.mpr ⟨hRow, rfl, of_decide_eq_true hStation⟩)
  · intro hNe
    obtain ⟨row, hMem⟩ := List.exists_mem_of_ne_nil _ hNe
    obtain ⟨hRow, rfl, hStation⟩ := mem_ownRows_iff.mp hMem
    obtain ⟨ref, hRef, hId⟩ := hNamed row hRow
    refine ⟨_, _, hRun, ⟨row.idUser, ref.user⟩, ?_, rfl⟩
    exact List.mem_flatMap.mpr ⟨row, List.mem_filter.mpr ⟨hRow, decide_eq_true hStation⟩,
      List.mem_map.mpr ⟨ref, List.mem_filter.mpr ⟨hRef, decide_eq_true hId⟩, rfl⟩⟩

/-- The first row decides like the rows of the station for every password. -/
theorem first_row_iff :
    (∀ password, (∃ first ∈ (passwordRows userid t).head?, first.password = password) ↔
      Registered station userid password t) ↔ FirstRowOfStation station userid t := by
  constructor
  · intro hSame first hFirst
    obtain ⟨row, hRow, -⟩ := (hSame first.password).mp ⟨first, hFirst, rfl⟩
    refine ⟨List.ne_nil_of_mem hRow, fun other hOther => ?_⟩
    obtain ⟨found, hFound, hPassword⟩ := (hSame other.password).mpr ⟨other, hOther, rfl⟩
    obtain rfl := Option.mem_unique hFirst hFound
    exact hPassword.symm
  · intro hOwn password
    constructor
    · rintro ⟨first, hFirst, rfl⟩
      obtain ⟨hNe, hAll⟩ := hOwn first hFirst
      obtain ⟨row, hRow⟩ := List.exists_mem_of_ne_nil _ hNe
      exact ⟨row, hRow, hAll row hRow⟩
    · rintro ⟨row, hRow, rfl⟩
      -- a row of the station is a row of the user, so there is a first one
      obtain ⟨first, rest, hRows⟩ := List.exists_cons_of_ne_nil
        (List.ne_nil_of_mem (mem_passwordRows hRow))
      have hFirst : first ∈ (passwordRows userid t).head? := by
        rw [hRows]
        rfl
      exact ⟨first, hFirst, ((hOwn first hFirst).2 row hRow).symm⟩

end Users

/-- With every statement executed and a name for every user: `auth_check` accepts exactly the
passwords that the user has at this station, and lists who can log in, if and only if
the first row of the user id has the password of all rows of the user at this station and
there is one, or the id has no row at all.  The users who can log in are listed if and only if
those with a row have one at this station. -/
theorem login_of_station_iff (pl : Platform) {con : Connection} {w : World}
    (hServes : Serves con w)
    (hNamed : ∀ row ∈ (w.tables con).locUsers,
      ∃ ref ∈ (w.tables con).refUsers, ref.idUser = row.idUser)
    (userid : Int) (admin : Bool) :
    (((∀ password, Accepts userid password admin w ↔
          Registered (w.station pl) userid password (w.tables con)) ∧
        ((∃ password, Accepts userid password admin w) → Listed pl userid w)) ↔
      FirstRowOfStation (w.station pl) userid (w.tables con)) ∧
    (((∃ password, Accepts userid password admin w) → Listed pl userid w) ↔
      (passwordRows userid (w.tables con) ≠ [] →
        ownRows (w.station pl) userid (w.tables con) ≠ [])) := by
  simp only [accepts_iff hServes, listed_iff hServes hNamed, first_row_iff]
  constructor
  · refine and_iff_left_of_imp fun hOwn => ?_
    rintro ⟨-, first, hFirst, -⟩
    exact (hOwn first hFirst).1
  · refine imp_congr_left ⟨?_, ?_⟩
    · rintro ⟨-, first, hFirst, -⟩ hNil
      rw [hNil] at hFirst
      cases hFirst
    · intro hNe
      obtain ⟨first, rest, hRows⟩ := List.exists_cons_of_ne_nil hNe
      exact ⟨first.password, first, by rw [hRows]; rfl, rfl⟩

/-- The users of a station 3 with a password of their own there. -/
def ownUsers : Tables :=
  { locUsers := [⟨7, ascii "b", 3⟩, ⟨7, ascii "b", 2⟩], refUsers := [⟨7, ascii "Ann"⟩] }

/-- The only password of the user 7 at the station is the one of the first row. -/
theorem own_user_logs_in :
    (((∀ password, Accepts 7 password false (stationWorld ownUsers) ↔
          Registered ((stationWorld ownUsers).station .plain) 7 password ownUsers) ∧
        ((∃ password, Accepts 7 password false (stationWorld ownUsers)) →
          Listed .plain 7 (stationWorld ownUsers)))) := by
  refine ((login_of_station_iff .plain (serves_stationWorld ownUsers) (by decide) 7 false).1).mpr ?_
  rw [station_stationWorld]
  unfold FirstRowOfStation
  decide +kernel

/-- The user 7 is registered at the stations 2 and 3, the user 8 only at the station 2. -/
def sharedUsers : Tables :=
  { locUsers := [⟨7, ascii "a", 2⟩, ⟨7, ascii "b", 3⟩, ⟨8, ascii "c", 2⟩]
    refUsers := [⟨7, ascii "Ann"⟩, ⟨8, ascii "Bob"⟩] }

/-- At the station 3 the user 7 logs in with the password of the station 2 only, and the user 8,
whom the page does not list, logs in as well. -/
theorem other_station_logs_in :
    Accepts 7 (ascii "a") false (stationWorld sharedUsers) ∧
      ¬ Registered ((stationWorld sharedUsers).station .plain) 7 (ascii "a") sharedUsers ∧
      ¬ Accepts 7 (ascii "b") false (stationWorld sharedUsers) ∧
      Registered ((stationWorld sharedUsers).station .plain) 7 (ascii "b") sharedUsers ∧
      Accepts 8 (ascii "c") false (stationWorld sharedUsers) ∧
      ¬ Listed .plain 8 (stationWorld sharedUsers) := by
  have hServes := serves_stationWorld sharedUsers
  rw [accepts_iff hServes, accepts_iff hServes, accepts_iff hServes,
    listed_iff hServes (by decide), station_stationWorld]
  unfold Registered
  decide +kernel

end Server
end AzsServer
