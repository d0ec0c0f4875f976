import AzsServer.Crow.CookieJson
import AzsServer.Server.SettingsGuard
import AzsServer.Server.ShiftFaults

/-!
# A session cookie on its way to the browser and back

`auth_post` puts the token of a login into the header `Set-Cookie`, and the browser sends
it back among the other cookies of the host.  If `ParseCookie` can tell these cookies apart
and none of them needs escaping, `check_coockie` finds the token, and the role it returns
is decided by the user id and by the age of the token.
-/

namespace AzsServer
namespace Server

open Core Crow Library Local

/-- What is assumed of the JWT library under a key: it decodes and verifies what it has
signed, and a signed token is a text of base64url characters and dots. -/
structure JwtCorrect (jwt : JwtLib) (key : Bytes) : Prop where
  decode : ∀ payload, jwt.decode (jwt.sign key payload) = some payload
  verify : ∀ payload, jwt.verify key (jwt.sign key payload) = true
  text : ∀ payload, JwtText (jwt.sign key payload)
  ne_nil : ∀ payload, jwt.sign key payload ≠ []

/-- The key that `get_secret_jwt` hands out. -/
def sessionKey (pl : Platform) (w : World) : Bytes := (afterSecret pl w).ld.data.secretjwt

/-- The header that carries a token to the browser. -/
def tokenHeader (token : Bytes) : Bytes × Bytes :=
  (ascii "Set-Cookie", ascii "refresh_token=" ++ token ++ ascii ";path=/;")

/-- The role that the cookie of a login is to give at a time. -/
def sessionRole (userid : Int) (issued now : TimePoint) : Int :=
  if now.ns < 10 ^ 9 * (issued.ns / 10 ^ 9) + 100 * 60 * 10 ^ 9 then
    if firstAdminId ≤ userid then 1 else 0
  else -1

/-! ## The login -/

section Login

variable {pl : Platform} {con : Connection} {w : World} {userid : Int} {r : Response}

theorem keeps_response_guarded {α : Type} {body : Prog α} (failed : α)
    (hBody : Keeps (fun w => w.response = r) (fun _ => True) body) :
    Keeps (fun w => w.response = r) (fun _ => True) (guarded body failed) :=
  keeps_catchSql hBody (.bind (.modify fun _ hSame => hSame) fun _ => .pure failed)

theorem keeps_response_connection :
    Keeps (fun w => w.response = r) (fun _ => True) connection := by
  refine .bind .get fun w => ?_
  cases w.azsDb.con with
  | none => exact .throw trivial
  | some con => exact .pure con

theorem keeps_response_executeQuery {ρ : Type} (sql : Bytes) (rows : Mysql.Tables → List ρ) :
    Keeps (fun w => w.response = r) (fun _ => True) (executeQuery sql rows) := by
  refine .bind keeps_response_connection fun con => .bind (fun _ hSame => hSame) fun executed => ?_
  refine .bind (.modify fun _ hSame => hSame) fun _ => .ite (.bind .get fun _ => .pure _) ?_
  exact .throw trivial

theorem keeps_response_executeUpdate (u : Mysql.Update) :
    Keeps (fun w => w.response = r) (fun _ => True) (executeUpdate pl u) := by
  refine .bind keeps_response_connection fun con => .bind (fun _ hSame => hSame) fun executed => ?_
  refine .bind .get fun w => ?_
  cases (if (executed && con.schema) = true then u.run pl.mysql (w.mysql (address con.info))
      else none) with
  | none => exact .bind (.modify fun _ hSame => hSame) fun _ => .throw trivial
  | some tables => exact .bind (.modify fun _ hSame => hSame) fun _ => .modify fun _ hSame => hSame

/-- The statements of the shift leave the reply alone. -/
theorem keeps_response_takeShift (userid : Int) :
    Keeps (fun w => w.response = r) (fun _ => True) (takeShift pl userid) := by
  have hIds : Keeps (fun w => w.response = r) (fun _ => True) (smenaBoolIds pl 0 0) :=
    .bind (fun _ hSame => hSame) fun id => keeps_response_guarded _
      (.bind (keeps_response_executeQuery _ _) fun _ => .pure _)
  refine .bind hIds fun ids => ?_
  refine .ite (keeps_response_guarded _ (keeps_response_executeUpdate _)) ?_
  exact keeps_response_guarded _ (.bind (fun _ hSame => hSame) fun _ =>
    .bind (fun _ hSame => hSame) fun _ => keeps_response_executeUpdate _)

/-- The key depends on the object `local_data` and on what SQLite and the generator
deliver. -/
theorem sessionKey_eq {v : World} (hLd : v.ld = w.ld) (hSqlite : v.env.sqlite = w.env.sqlite)
    (hDraws : v.env.draws = w.env.draws) : sessionKey pl v = sessionKey pl w := by
  unfold sessionKey afterSecret
  rw [hLd]
  split_ifs
  · simp only [endState, generatejwtSecret_run, hLd, hSqlite, hDraws]
  · rw [hLd]

/-- An accepted login returns, and its reply carries the token of the user. -/
theorem authPost_sets_token {req : Request} (hAccepted : LoginAccepted pl w req.body con userid) :
    ∃ next, authPost pl req w = .ok ⟨⟩ next ∧
      next.response.headers = w.response.headers ++
        [tokenHeader (sessionToken pl (sessionKey pl w) w.env.now userid
          (decide (firstAdminId ≤ userid)))] := by
  have hRun := authPost_run_of_accepted hAccepted
  obtain ⟨taken, hTake, -⟩ := takeShift_faulty (w := afterLogin userid w) pl userid
    hAccepted.con_eq hAccepted.schema
  -- the statements of the shift change neither the key nor the reply
  have hFrame : taken.ld = w.ld ∧ taken.env = { w.env with sql := taken.env.sql } := by
    have hKeeps : Keeps (fun v => v.ld = w.ld ∧ v.env = { w.env with sql := v.env.sql })
        (fun _ => True) (takeShift pl userid) := by
      refine (Calls.takeShift userid).keeps (fun v next hSame hFramed => ?_) fun _ _ _ _ => trivial
      exact ⟨hFramed.ld.trans hSame.1, by rw [hFramed.env, hSame.2]⟩
    have hEnd := hKeeps (afterLogin userid w) ⟨rfl, rfl⟩
    rw [hTake] at hEnd
    exact hEnd
  have hResponse : taken.response = w.response := by
    have hEnd := @keeps_response_takeShift pl w.response userid (afterLogin userid w) rfl
    rw [hTake] at hEnd
    exact hEnd
  have hKey : sessionKey pl taken = sessionKey pl w :=
    sessionKey_eq hFrame.1 (by rw [hFrame.2]) (by rw [hFrame.2])
  have hNow : taken.env.now = w.env.now := by rw [hFrame.2]
  have hIssue : issueToken pl userid (decide (firstAdminId ≤ userid)) taken =
      .ok ⟨⟩ ((afterToken pl userid (decide (firstAdminId ≤ userid)) taken).mapResponse fun r =>
        { r with headers := r.headers ++ [tokenHeader (sessionToken pl (sessionKey pl taken)
          taken.env.now userid (decide (firstAdminId ≤ userid)))] }) := by
    unfold issueToken
    rw [bind_of_ok (createToken_run pl _ taken)]
    rfl
  rw [bind_of_ok hTake, bind_of_ok hIssue] at hRun
  refine ⟨_, hRun, ?_⟩
  show (afterSecret pl taken).response.headers ++ [tokenHeader _] = _
  rw [response_afterSecret, hResponse, hKey, hNow]

end Login

/-! ## The check -/

section Check

variable {pl : Platform} {w : World} {req : Request} {key token : Bytes}

theorem escape_jwtText (hToken : JwtText token) : Crow.escape token = token := by
  have hAll : ∀ n < 256, isJwtByte (UInt8.ofNat n) = true →
      Crow.escapeByte (UInt8.ofNat n) = [UInt8.ofNat n] := by
    decide +kernel
  refine escape_eq_self fun c hMem => ?_
  have hByte := hToken c hMem
  have hSame : UInt8.ofNat c.toNat = c := UInt8.ofNat_toNat
  rw [← hSame] at hByte ⊢
  exact hAll c.toNat c.toNat_lt hByte

theorem stripQuotes_jwtText (hToken : JwtText token) : stripQuotes token = some token := by
  cases token with
  | nil => rfl
  | cons c token =>
      have hQuote : c ≠ 34 := by
        rintro rfl
        exact absurd (hToken 34 List.mem_cons_self) (by decide)
      simp [stripQuotes, hQuote]

/-- A token that stands among other cookies is found. -/
theorem load_cookies {before after : List (Bytes × Bytes)}
    (hOthers : ∀ cookie ∈ before ++ after, CookiePair cookie ∧ PlainPair cookie)
    (hToken : JwtText token) :
    load (parseCookie (cookieHeader (before ++ (ascii "refresh_token", token) :: after))) =
      some (.object (stringMembers (before ++ (ascii "refresh_token", token) :: after))) := by
  obtain ⟨hRfc, hEncodable⟩ := rfcCookie_token hToken
  have hAll : ∀ cookie ∈ before ++ (ascii "refresh_token", token) :: after,
      CookiePair cookie ∧ PlainPair cookie := by
    intro cookie hMem
    rcases List.mem_append.mp hMem with hBefore | hRest
    · exact hOthers cookie (List.mem_append_left _ hBefore)
    · rcases List.mem_cons.mp hRest with rfl | hAfter
      · exact ⟨hRfc.cookiePair hEncodable, hRfc.plainPair hEncodable.2⟩
      · exact hOthers cookie (List.mem_append_right _ hAfter)
  rw [parseCookie_pairs fun cookie hMem => (hAll cookie hMem).1]
  exact load_pairsText fun cookie hMem => (hAll cookie hMem).2

theorem checkCoockie_of_cookieRole {role : Int} (hRole : cookieRole pl req w = some role) :
    ∃ next, checkCoockie pl req w = .ok role next := by
  rcases checkCoockie_role_cases pl req w with
    ⟨-, hNone⟩ | ⟨hRun, hSome⟩ | ⟨-, bare, payload, -, hRun, hSome⟩
  · rw [hNone] at hRole
    cases hRole
  · rw [hSome] at hRole
    obtain rfl := Option.some.inj hRole
    exact ⟨w, hRun⟩
  · rw [hSome] at hRole
    obtain rfl := Option.some.inj hRole
    exact ⟨_, hRun⟩

/-- The role that a token gives: of its payload, if it can be read and is verified. -/
def tokenRole (pl : Platform) (w : World) (token : Bytes) : Int :=
  match pl.jwt.decode token >>= Crow.load with
  | none => -1
  | some payload =>
      if pl.jwt.verify (sessionKey pl w) token = true then payloadRole pl w.env.now payload else -1

/-- A cookie with the text of a token has the role of the token. -/
theorem cookieRole_of_token {members : List (Bytes × Json)} (hText : JwtText token)
    (hNe : token ≠ []) (hLoad : load (parseCookie req.cookie) = some (.object members))
    (hMember : (Json.object members).member (ascii "refresh_token") = .string token) :
    cookieRole pl req w = some (tokenRole pl w token) := by
  obtain ⟨c, rest, hCons⟩ := List.exists_cons_of_ne_nil hNe
  have hEscape := escape_jwtText hText
  -- what is written for the token is neither `null` nor the empty string
  have hDump : Crow.dump pl.floatText (.string token) = 34 :: (c :: rest ++ [34]) := by
    rw [Crow.dump, hEscape, hCons]
    rfl
  have hPresent : ¬ (Crow.dump pl.floatText (.string token) = ascii "null" ∨
      Crow.dump pl.floatText (.string token) = ascii "\"\"") := by
    rw [hDump]
    rintro (hNull | hEmpty)
    · have hHead : (34 : UInt8) = 110 := Option.some.inj (congrArg List.head? hNull)
      exact absurd hHead (by decide)
    · have hLength := congrArg List.length hEmpty
      simp [ascii] at hLength
  -- no byte of the token is escaped, so it comes to the library as it was sent
  have hTokenPayload : tokenPayload pl (Crow.dumpTrue pl.floatText (.string token)) =
      (pl.jwt.decode token >>= Crow.load).map fun payload => (token, payload) := by
    show tokenPayload pl (Crow.escape token) = _
    rw [hEscape, tokenPayload, stripQuotes_jwtText hText]
    show (pl.jwt.decode token >>= fun payload => Crow.load payload >>= fun jpayload =>
      some (token, jpayload)) = _
    cases pl.jwt.decode token with
    | none => rfl
    | some text =>
        show (Crow.load text >>= fun jpayload => some (token, jpayload)) = (Crow.load text).map _
        cases Crow.load text with
        | none => rfl
        | some payload => rfl
  rw [cookieRole, hLoad]
  show (if _ then _ else _ : Option Int) = _
  rw [hMember, if_neg hPresent, hTokenPayload, tokenRole]
  cases pl.jwt.decode token >>= Crow.load with
  | none => rfl
  | some payload =>
      show (if pl.jwt.verify (sessionKey pl w) token = true then _ else _ : Option Int) =
        some (if pl.jwt.verify (sessionKey pl w) token = true then _ else _)
      split_ifs
      · rfl
      · rfl

/-- The role of a cookie that carries a token signed under the key in use. -/
theorem cookieRole_of_signed {members : List (Bytes × Json)} {payload : Json} {text : Bytes}
    (hJwt : JwtCorrect pl.jwt (sessionKey pl w))
    (hLoad : load (parseCookie req.cookie) = some (.object members))
    (hMember : (Json.object members).member (ascii "refresh_token") =
      .string (pl.jwt.sign (sessionKey pl w) text)) (hPayload : load text = some payload) :
    cookieRole pl req w = some (payloadRole pl w.env.now payload) := by
  have hDecode : (pl.jwt.decode (pl.jwt.sign (sessionKey pl w) text) >>= Crow.load) =
      some payload := by
    rw [hJwt.decode]
    exact hPayload
  rw [cookieRole_of_token (hJwt.text text) (hJwt.ne_nil text) hLoad hMember, tokenRole, hDecode]
  exact congrArg some (if_pos (hJwt.verify text))

end Check

/-- The plain library is correct under a key of such characters. -/
theorem jwtCorrect_plain {key : Bytes} (hKey : JwtText key) : JwtCorrect .plain key where
  decode := JwtLib.plain_decode_sign key
  verify payload := by
    -- the letters contain no dot, so the key is found behind the first one
    have hDrop : (letters payload ++ 46 :: key).dropWhile (· ≠ 46) = 46 :: key := by
      rw [List.dropWhile_append_of_pos]
      · simp
      · intro c hMem
        rw [decide_eq_true_iff]
        rintro rfl
        exact dot_notMem_letters payload hMem
    show ((letters payload ++ 46 :: key).dropWhile (· ≠ 46) == 46 :: key) = true
    rw [hDrop]
    exact beq_self_eq_true _
  text payload := by
    have hLetters : ∀ n < 256, isJwtByte (97 + UInt8.ofNat n / 16) = true ∧
        isJwtByte (97 + UInt8.ofNat n % 16) = true := by
      decide +kernel
    intro c hMem
    rcases List.mem_append.mp hMem with hPayload | hRest
    · obtain ⟨d, -, hLetter⟩ := List.mem_flatMap.mp hPayload
      have hSame : UInt8.ofNat d.toNat = d := UInt8.ofNat_toNat
      obtain ⟨hHigh, hLow⟩ := hLetters d.toNat d.toNat_lt
      rw [hSame] at hHigh hLow
      rcases List.mem_pair.mp hLetter with rfl | rfl
      · exact hHigh
      · exact hLow
    · rcases List.mem_cons.mp hRest with rfl | hInKey
      · rfl
      · exact hKey c hInKey
  ne_nil payload := by simp [JwtLib.plain]

/-- The server of a clerk with a key in its cache. -/
def keyedWorld (now : TimePoint) : World :=
  { openShiftWorld [] with
    ld := { data := { secretjwt := ascii "key" } }
    env := { now := now } }

end Server
end AzsServer
