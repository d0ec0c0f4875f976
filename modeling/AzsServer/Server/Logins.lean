import AzsServer.Server.Calls

/-!
# Logins and cookie checks

What `auth_post` does, whatever becomes of its statements: the password check accepts
or refuses, an accepted login is in the log before the shift is taken, and the token
is signed at the end.  `endState_authPost` is the rule for properties of all this.
`checkCoockie_cases` lists the ways in which `check_coockie` can end.
-/

namespace AzsServer
namespace Server

open Core Library Local

/-- The user that `auth_check` accepts for the body of a login. -/
def acceptedUser (pl : Platform) (con : Connection) (w : World) (body : Bytes) : Option Int := do
  let (userid, password) ← loginForm pl body
  let row ← (passwordRows userid (w.tables con)).head?
  if row.password = password then some userid else none

/-- The state in which `auth_check` has accepted a login. -/
def afterLogin (userid : Int) (w : World) : World :=
  (w.popSql.observed (.select (passwordSql userid) true)).observed
    (.login userid (decide (firstAdminId ≤ userid)) w.env.now)

/-- The state in which `auth_check` has refused a login. -/
def afterRefusedLogin (userid : Int) (executed isconn : Bool) (w : World) : World :=
  (w.popSql.observed (.select (passwordSql userid) executed)).mapDb fun db =>
    { db with isconn := isconn }

/-- The claims of a session. -/
def sessionClaims (pl : Platform) (now : TimePoint) (userid : Int) (admin : Bool) :
    List (Bytes × Bytes) :=
  tokenClaims pl now
    [(ascii "user_id", .string (intToString userid)), (ascii "admin", .bool admin)]

/-- The token of a login. -/
def sessionToken (pl : Platform) (key : Bytes) (now : TimePoint) (userid : Int) (admin : Bool) :
    Bytes :=
  pl.jwt.sign key (payloadText (sessionClaims pl now userid admin))

/-- The state in which `create_token` has signed the token of a login. -/
def afterToken (pl : Platform) (userid : Int) (admin : Bool) (w : World) : World :=
  (afterSecret pl w).observed (.signed (afterSecret pl w).ld.data.secretjwt
    (sessionToken pl (afterSecret pl w).ld.data.secretjwt w.env.now userid admin)
    w.azsDb.inUse)

section Logins

variable {pl : Platform} {con : Connection} {w : World} {userid : Int} {password : Bytes}

theorem authCheck_run_of_none (hCon : w.azsDb.con = none) (admin : Bool) :
    authCheck userid password admin w = .error .nullCall w := by
  have hQuery : executeQuery (passwordSql userid) (passwordRows userid) w =
      .error .nullCall w := bind_of_error (connection_run_of_none hCon)
  unfold authCheck guarded catchSql
  rw [bind_of_error hQuery]

/-- The first row has the password. -/
theorem authCheck_run_of_accepted {row : Mysql.LocUser} (hCon : w.azsDb.con = some con)
    (hExecutes : w.executes con = true)
    (hRow : (passwordRows userid (w.tables con)).head? = some row)
    (hPassword : row.password = password) :
    authCheck userid password false w =
      .ok (true, decide (firstAdminId ≤ userid)) (afterLogin userid w) := by
  obtain ⟨rest, hRows⟩ : ∃ rest, passwordRows userid (w.tables con) = row :: rest :=
    ⟨_, (List.cons_head?_tail hRow).symm⟩
  have hQuery := executeQuery_run (passwordSql userid) (passwordRows userid) hCon
  rw [if_pos hExecutes] at hQuery
  unfold authCheck
  apply guarded_of_ok
  rw [World.tables] at hRows
  rw [bind_of_ok hQuery, hRows]
  show (if row.password = password then _ else _ : Prog (Bool × Bool)) _ = _
  rw [if_pos hPassword]
  rfl

/-- The statement is not executed, nobody has the id, or the password is wrong. -/
theorem authCheck_run_of_refused (hCon : w.azsDb.con = some con)
    (hRefused : w.executes con = true →
      ∀ row ∈ (passwordRows userid (w.tables con)).head?, row.password ≠ password) :
    ∃ isconn, authCheck userid password false w =
        .ok (false, false) (afterRefusedLogin userid (w.executes con) isconn w) ∧
      (isconn = true → w.azsDb.isconn = true) := by
  have hQuery := executeQuery_run (passwordSql userid) (passwordRows userid) hCon
  unfold authCheck
  cases hExecutes : w.executes con with
  | false =>
      rw [hExecutes] at hQuery
      exact ⟨false, guarded_of_sqlException (false, false) (bind_of_error hQuery),
        fun hTrue => by cases hTrue⟩
  | true =>
      rw [hExecutes, if_pos rfl] at hQuery
      cases hRows : passwordRows userid (w.mysql (address con.info)) with
      | nil =>
          rw [hRows] at hQuery
          exact ⟨false, guarded_of_sqlException (false, false) (bind_of_ok hQuery),
            fun hTrue => by cases hTrue⟩
      | cons row rest =>
          rw [hRows] at hQuery
          have hNe : row.password ≠ password :=
            hRefused hExecutes row (by rw [World.tables, hRows]; rfl)
          refine ⟨w.azsDb.isconn, ?_, id⟩
          apply guarded_of_ok
          rw [bind_of_ok hQuery]
          show (if row.password = password then _ else _ : Prog (Bool × Bool)) _ = _
          rw [if_neg hNe]
          rfl

theorem issueToken_run (pl : Platform) (userid : Int) (admin : Bool) (w : World) :
    ∃ f, issueToken pl userid admin w = .ok ⟨⟩ ((afterToken pl userid admin w).mapResponse f) := by
  unfold issueToken
  rw [bind_of_ok (createToken_run pl _ w)]
  exact ⟨_, rfl⟩

theorem issueToken_frame (pl : Platform) (userid : Int) (admin : Bool) (w : World) :
    ∃ next, issueToken pl userid admin w = .ok ⟨⟩ next ∧ next.azsDb = w.azsDb ∧
      next.mysql = w.mysql := by
  obtain ⟨f, hRun⟩ := issueToken_run pl userid admin w
  exact ⟨_, hRun, azsDb_afterSecret pl w, mysql_afterSecret pl w⟩

theorem authPost_run_of_none {req : Request} (hForm : loginForm pl req.body = none) :
    authPost pl req w = .error .stdException w := by
  rw [authPost, hForm]
  rfl

theorem authPost_run_of_some {req : Request} {auth admin : Bool} {next : World}
    (hForm : loginForm pl req.body = some (userid, password))
    (hCheck : authCheck userid password false w = .ok (auth, admin) next) :
    authPost pl req w =
      (if auth = true then do
        takeShift pl userid
        issueToken pl userid admin
        replyStatus "yes"
      else
        replyStatus "not" : Prog Unit) next := by
  rw [authPost, hForm]
  show (authCheck userid password false >>= _) w = _
  rw [bind_of_ok hCheck]

/-- A login that can be decoded goes to the database whatever `isconn` says. -/
theorem authPost_run_of_null {req : Request} (hCon : w.azsDb.con = none)
    (hForm : loginForm pl req.body ≠ none) : authPost pl req w = .error .nullCall w := by
  obtain ⟨⟨userid, password⟩, hSome⟩ := Option.ne_none_iff_exists'.mp hForm
  rw [authPost, hSome]
  show (authCheck userid password false >>= _ : Prog Unit) w = _
  exact bind_of_error (authCheck_run_of_none hCon false)

/-- `auth_check` accepts the login in the body of a request. -/
structure LoginAccepted (pl : Platform) (w : World) (body : Bytes) (con : Connection)
    (userid : Int) : Prop where
  con_eq : w.azsDb.con = some con
  executes : w.executes con = true
  user : acceptedUser pl con w body = some userid

theorem framed_afterRefusedLogin {executed isconn : Bool}
    (hIsconn : isconn = true → w.azsDb.isconn = true) :
    Framed Entry.isSelect w (afterRefusedLogin userid executed isconn w) where
  azsDb := rfl
  isconn := hIsconn
  ld := rfl
  env := rfl
  started := rfl
  log := .of_line rfl trivial

theorem framed_mapResponse (allowed : Entry → Prop) (w : World) (f : Response → Response) :
    Framed allowed w (w.mapResponse f) :=
  ⟨rfl, id, rfl, rfl, rfl, .of_eq rfl⟩

/-- The rule for `auth_post`: a property that survives statements which select, that becomes
the second one at an accepted login, and that follows from the second one at any time and
when the token is signed, while the shift keeps the second one. -/
theorem endState_authPost_of_take (inv : World → Prop) (since : Int → World → Prop)
    {req : Request} (hInv : inv w)
    (hFrame : ∀ w next, inv w → Framed Entry.isSelect w next → inv next)
    (hLogin : ∀ con userid, LoginAccepted pl w req.body con userid →
      since userid (afterLogin userid w))
    (hTake : ∀ userid, Keeps (since userid) (fun _ => True) (takeShift pl userid))
    (hEnd : ∀ userid w, since userid w → inv w)
    (hToken : ∀ userid w, since userid w →
      inv (afterToken pl userid (decide (firstAdminId ≤ userid)) w)) :
    inv (endState (authPost pl req) w) := by
  cases hForm : loginForm pl req.body with
  | none =>
      rw [endState, authPost_run_of_none hForm]
      exact hInv
  | some form =>
  obtain ⟨userid, password⟩ := form
  cases hCon : w.azsDb.con with
  | none =>
      rw [endState, authPost_run_of_null hCon (by rw [hForm]; exact Option.some_ne_none _)]
      exact hInv
  | some con =>
  -- only a statement that runs can deliver the password
  by_cases hRight : w.executes con = true ∧
      ∃ row, (passwordRows userid (w.tables con)).head? = some row ∧ row.password = password
  · -- the login is accepted
    obtain ⟨hExecutes, row, hRow, hPassword⟩ := hRight
    have hAccepted : LoginAccepted pl w req.body con userid :=
      ⟨hCon, hExecutes, by simp [acceptedUser, hForm, hRow, hPassword]⟩
    have hSince := hLogin con userid hAccepted
    have hTaken := hTake userid (afterLogin userid w) hSince
    rw [endState, authPost_run_of_some hForm
      (authCheck_run_of_accepted hCon hExecutes hRow hPassword), if_pos rfl]
    cases hRun : takeShift pl userid (afterLogin userid w) with
    | error e next =>
        rw [hRun] at hTaken
        rw [bind_of_error hRun]
        exact hEnd userid next hTaken.1
    | ok a next =>
        rw [hRun] at hTaken
        obtain ⟨f, hIssue⟩ := issueToken_run pl userid (decide (firstAdminId ≤ userid)) next
        rw [bind_of_ok hRun, bind_of_ok hIssue]
        refine hFrame _ _ (hFrame _ _ (hFrame _ _ (hToken userid next hTaken)
          (framed_mapResponse _ _ f)) (framed_mapResponse _ _ _)) (framed_mapResponse _ _ _)
  · -- it is refused
    have hRefused : w.executes con = true →
        ∀ row ∈ (passwordRows userid (w.tables con)).head?, row.password ≠ password :=
      fun hExecutes row hRow hPassword => hRight ⟨hExecutes, row, hRow, hPassword⟩
    obtain ⟨isconn, hRun, hIsconn⟩ := authCheck_run_of_refused hCon hRefused
    rw [endState, authPost_run_of_some hForm hRun]
    exact hFrame _ _ (hFrame _ _ (hFrame _ _ hInv (framed_afterRefusedLogin hIsconn))
      (framed_mapResponse _ _ _)) (framed_mapResponse _ _ _)

/-- The rule for a property that survives the statements of a shift. -/
theorem endState_authPost (inv : World → Prop) (since : Int → World → Prop) {req : Request}
    (hInv : inv w)
    (hFrame : ∀ w next, inv w → Framed Entry.isShiftLine w next → inv next)
    (hLogin : ∀ con userid, LoginAccepted pl w req.body con userid →
      since userid (afterLogin userid w))
    (hShift : ∀ userid w next, since userid w → Framed Entry.isShiftLine w next →
      since userid next)
    (hEnd : ∀ userid w, since userid w → inv w)
    (hToken : ∀ userid w, since userid w →
      inv (afterToken pl userid (decide (firstAdminId ≤ userid)) w)) :
    inv (endState (authPost pl req) w) :=
  endState_authPost_of_take inv since hInv
    (fun w next hHolds hFramed => hFrame w next hHolds (hFramed.mono Entry.isShiftLine_of_select))
    hLogin (fun userid => (Calls.takeShift userid).keeps (hShift userid) fun _ _ _ _ => trivial)
    hEnd hToken

end Logins

/-! ## Cookie checks -/

section Cookies

variable {pl : Platform}

/-- The state in which `verify_token` has checked a token. -/
def afterVerify (pl : Platform) (bare : Bytes) (w : World) : World :=
  (afterSecret pl w).observed (.verified (afterSecret pl w).ld.data.secretjwt bare
    (pl.jwt.verify (afterSecret pl w).ld.data.secretjwt bare))

/-- The role that the cookie of a request gives its client; `none` for a cookie that is not
read as JSON. -/
def cookieRole (pl : Platform) (req : Request) (w : World) : Option Int := do
  let jcookie ← Crow.load (parseCookie req.cookie)
  let token := jcookie.member (ascii "refresh_token")
  let text := Crow.dump pl.floatText token
  if text = ascii "null" ∨ text = ascii "\"\"" then
    return -1
  else
    match tokenPayload pl (Crow.dumpTrue pl.floatText token) with
    | none => return -1
    | some (bare, payload) =>
        if pl.jwt.verify (afterSecret pl w).ld.data.secretjwt bare = true then
          return payloadRole pl w.env.now payload
        else
          return -1

/-- The check throws, it finds no token that can be decoded, or it verifies one; each with
the role of the cookie. -/
theorem checkCoockie_role_cases (pl : Platform) (req : Request) (w : World) :
    (checkCoockie pl req w = .error .stdException w ∧ cookieRole pl req w = none) ∨
      (checkCoockie pl req w = .ok (-1) w ∧ cookieRole pl req w = some (-1)) ∨
      ∃ token bare payload, tokenPayload pl token = some (bare, payload) ∧
        checkCoockie pl req w =
          .ok (if pl.jwt.verify (afterSecret pl w).ld.data.secretjwt bare = true then
            payloadRole pl w.env.now payload else -1) (afterVerify pl bare w) ∧
        cookieRole pl req w =
          some (if pl.jwt.verify (afterSecret pl w).ld.data.secretjwt bare = true then
            payloadRole pl w.env.now payload else -1) := by
  cases hCookie : Crow.load (parseCookie req.cookie) with
  | none =>
      refine Or.inl ⟨?_, ?_⟩
      · rw [checkCoockie, hCookie]
        rfl
      · rw [cookieRole, hCookie]
        rfl
  | some jcookie =>
      have hRole : cookieRole pl req w =
          if Crow.dump pl.floatText (jcookie.member (ascii "refresh_token")) = ascii "null" ∨
              Crow.dump pl.floatText (jcookie.member (ascii "refresh_token")) = ascii "\"\"" then
            some (-1)
          else match tokenPayload pl
              (Crow.dumpTrue pl.floatText (jcookie.member (ascii "refresh_token"))) with
            | none => some (-1)
            | some (bare, payload) =>
                if pl.jwt.verify (afterSecret pl w).ld.data.secretjwt bare = true then
                  some (payloadRole pl w.env.now payload)
                else some (-1) := by
        rw [cookieRole, hCookie]
        rfl
      -- a missing member is written as `null`, an empty one as `""`
      by_cases hMissing : Crow.dump pl.floatText (jcookie.member (ascii "refresh_token")) =
          ascii "null" ∨
        Crow.dump pl.floatText (jcookie.member (ascii "refresh_token")) = ascii "\"\""
      · refine Or.inr (Or.inl ⟨?_, by rw [hRole, if_pos hMissing]⟩)
        rw [checkCoockie, hCookie]
        show (if _ then _ else _ : Prog Int) w = _
        rw [if_pos hMissing]
        rfl
      · have hRun : checkCoockie pl req w =
            (verifyToken pl (Crow.dumpTrue pl.floatText (jcookie.member (ascii "refresh_token"))) >>=
              fun result => systemNow >>= fun now =>
                if result.1 = true then pure (payloadRole pl now result.2) else pure (-1)) w := by
          rw [checkCoockie, hCookie]
          show (if _ then _ else _ : Prog Int) w = _
          rw [if_neg hMissing]
        rw [if_neg hMissing] at hRole
        cases hPayload : tokenPayload pl
            (Crow.dumpTrue pl.floatText (jcookie.member (ascii "refresh_token"))) with
        | none =>
            refine Or.inr (Or.inl ⟨?_, by rw [hRole, hPayload]⟩)
            rw [hRun, bind_of_ok (verifyToken_run_of_none hPayload w)]
            rfl
        | some found =>
            obtain ⟨bare, payload⟩ := found
            refine Or.inr (Or.inr ⟨_, bare, payload, hPayload, ?_, ?_⟩)
            · rw [hRun, bind_of_ok (verifyToken_run_of_some hPayload w),
                bind_of_ok (systemNow_run _), ite_run]
              have hNow : (afterVerify pl bare w).env.now = w.env.now := now_afterSecret pl w
              show (if pl.jwt.verify (afterSecret pl w).ld.data.secretjwt bare = true then
                (.ok (payloadRole pl (afterVerify pl bare w).env.now payload) (afterVerify pl bare w) :
                  EStateM.Result Throw World Int)
                else .ok (-1) (afterVerify pl bare w)) = _
              rw [hNow]
              split_ifs
              · rfl
              · rfl
            · rw [hRole, hPayload]
              exact (apply_ite some _ _ _).symm

/-- The check throws, it finds no token that can be decoded, or it verifies one. -/
theorem checkCoockie_cases (pl : Platform) (req : Request) (w : World) :
    checkCoockie pl req w = .error .stdException w ∨ checkCoockie pl req w = .ok (-1) w ∨
      ∃ token bare payload, tokenPayload pl token = some (bare, payload) ∧
        checkCoockie pl req w =
          .ok (if pl.jwt.verify (afterSecret pl w).ld.data.secretjwt bare = true then
            payloadRole pl w.env.now payload else -1) (afterVerify pl bare w) := by
  rcases checkCoockie_role_cases pl req w with
    ⟨hError, -⟩ | ⟨hNone, -⟩ | ⟨token, bare, payload, hPayload, hEnd, -⟩
  · exact Or.inl hError
  · exact Or.inr (Or.inl hNone)
  · exact Or.inr (Or.inr ⟨token, bare, payload, hPayload, hEnd⟩)

section Rules

variable {inv : World → Prop} {throws : Throw → Prop}

/-- The cookie check keeps what the verification of a token keeps. -/
theorem keeps_checkCoockie (hVerify : ∀ w bare, inv w → inv (afterVerify pl bare w))
    (hStd : throws .stdException) (req : Request) : Keeps inv throws (checkCoockie pl req) := by
  intro w hInv
  rcases checkCoockie_cases pl req w with hRun | hRun | ⟨token, bare, payload, -, hRun⟩
  · rw [hRun]
    exact ⟨hInv, hStd⟩
  · rw [hRun]
    exact hInv
  · rw [hRun]
    exact hVerify w bare hInv

/-- So does the guard of the pages with the connection data. -/
theorem keeps_settingsAllowed (hVerify : ∀ w bare, inv w → inv (afterVerify pl bare w))
    (hStd : throws .stdException) (req : Request) : Keeps inv throws (settingsAllowed pl req) :=
  .bind (.bind .get fun _ => .pure _) fun _ =>
    .ite (.pure _) (.bind (keeps_checkCoockie hVerify hStd req) fun _ => .pure _)

end Rules

end Cookies

end Server
end AzsServer
