import AzsServer.Server.World

/-!
# Sessions: `create_token` and `verify_token`

A session is a JWT signed under the secret of `local_data`.  The claims of a token
are strings in a map; its payload is their text as `picojson` writes it.
-/

namespace AzsServer
namespace Server

open Core Library Local

/-! ## The calls of `local_data` -/

section LocalCalls

variable (pl : Platform)

/-- `ld->set_mysql_conn_info` -/
def setMysqlConnInfo (info : MysqlConnInfo) : Prog Bool := do
  let o ← nextSqlite
  let w ← get
  let (saved, ld) := Local.setMysqlConnInfo pl.sqlite o info w.ld
  set { w with ld := ld }
  return saved

/-- `ld->generatejwt_secret` -/
def generatejwtSecret (reginerate : Bool) : Prog Bytes := do
  let o ← nextSqlite
  let dis ← nextDraw
  let w ← get
  let (secret, ld) := Local.generatejwtSecret pl.sqlite o dis reginerate w.ld
  set { w with ld := ld }
  observe (.generate reginerate (generateSecretKey 15 dis) secret)
  return secret

/-- `ld->get_secret_jwt` -/
def getSecretJwt : Prog Bytes := do
  if (← get).ld.data.secretjwt = [] then
    let _ ← generatejwtSecret pl false
  return (← get).ld.data.secretjwt

end LocalCalls

/-! ## The payload of a token -/

/-- `set_payload_claim`: the claims are a map, kept sorted by key. -/
def setPayloadClaim (key value : Bytes) : List (Bytes × Bytes) → List (Bytes × Bytes)
  | [] => [(key, value)]
  | (k, v) :: rest =>
      if key = k then (key, value) :: rest
      else if key < k then (key, value) :: (k, v) :: rest
      else (k, v) :: setPayloadClaim key value rest

/-- `serialize_str_char` -/
def serializeByte (c : UInt8) : Bytes :=
  if c = 34 then ascii "\\\""
  else if c = 92 then ascii "\\\\"
  else if c = 47 then ascii "\\/"
  else if c = 8 then ascii "\\b"
  else if c = 12 then ascii "\\f"
  else if c = 10 then ascii "\\n"
  else if c = 13 then ascii "\\r"
  else if c = 9 then ascii "\\t"
  else if c < 32 ∨ c = 127 then
    ascii "\\u00" ++ [Crow.toHex (c.toNat / 16), Crow.toHex (c.toNat % 16)]
  else [c]

/-- `serialize_str` -/
def serializeStr (text : Bytes) : Bytes :=
  quoteByte :: text.flatMap serializeByte ++ [quoteByte]

/-- One claim in the text of the payload. -/
def serializeClaim (claim : Bytes × Bytes) : Bytes :=
  serializeStr claim.1 ++ colonByte :: serializeStr claim.2

/-- The claims of the payload, separated by commas. -/
def serializeClaims : List (Bytes × Bytes) → Bytes
  | [] => []
  | [claim] => serializeClaim claim
  | claim :: next :: rest => serializeClaim claim ++ commaByte :: serializeClaims (next :: rest)

/-- `serialize` of the claims. -/
def payloadText (claims : List (Bytes × Bytes)) : Bytes :=
  openByte :: serializeClaims claims ++ [closeByte]

/-- The claims that `create_token` sets: the time and the members of `json`. -/
def tokenClaims (pl : Platform) (now : TimePoint) (json : List (Bytes × Crow.Json)) :
    List (Bytes × Bytes) :=
  json.foldl (fun claims member =>
      setPayloadClaim member.1 (Crow.dumpTrue pl.floatText member.2) claims)
    (setPayloadClaim (ascii "time_create") (timetostr pl.zone now) [])

section Tokens

variable (pl : Platform)

/-- `create_token(json)`; the overload without argument is the case of no members. -/
def createToken (json : List (Bytes × Crow.Json)) : Prog Bytes := do
  let w ← get
  let secret ← getSecretJwt pl
  let token := pl.jwt.sign secret (payloadText (tokenClaims pl w.env.now json))
  observe (.signed secret token w.azsDb.inUse)
  return token

/-- The token without the quotes of a dumped JSON string; `none` when `resize` throws. -/
def stripQuotes : Bytes → Option Bytes
  | 34 :: rest => if rest = [] then none else some rest.dropLast
  | token => some token

/-- The token behind `stripQuotes` and its payload as `verify_token` reads them;
`none` when one of the steps throws. -/
def tokenPayload (token : Bytes) : Option (Bytes × Crow.Json) := do
  let token ← stripQuotes token
  let payload ← pl.jwt.decode token
  let jpayload ← Crow.load payload
  return (token, jpayload)

/-- `verify_token`: whether the token is accepted, and the payload. -/
def verifyToken (token : Bytes) : Prog (Bool × Crow.Json) := do
  match tokenPayload pl token with
  | none => return (false, .null)
  | some (token, jpayload) =>
      let secret ← getSecretJwt pl
      let accepted := pl.jwt.verify secret token
      observe (.verified secret token accepted)
      return (accepted, jpayload)

end Tokens

theorem payload_of_tokenPayload {pl : Platform} {token bare : Bytes} {payload : Crow.Json}
    (hPayload : tokenPayload pl token = some (bare, payload)) :
    ∃ text, pl.jwt.decode bare = some text ∧ Crow.load text = some payload := by
  obtain ⟨stripped, -, hRest⟩ := Option.bind_eq_some_iff.mp hPayload
  obtain ⟨text, hDecode, hLast⟩ := Option.bind_eq_some_iff.mp hRest
  obtain ⟨value, hLoad, hPair⟩ := Option.bind_eq_some_iff.mp hLast
  obtain ⟨rfl, rfl⟩ := Prod.mk.inj (Option.some.inj hPair)
  exact ⟨text, hDecode, hLoad⟩

/-! ## What the calls do -/

theorem generatejwtSecret_run (pl : Platform) (reginerate : Bool) (w : World) :
    generatejwtSecret pl reginerate w =
      .ok (Local.generatejwtSecret pl.sqlite (w.env.sqlite.headD {})
          (w.env.draws.headD fun _ => 0) reginerate w.ld).1
        { w with
          ld := (Local.generatejwtSecret pl.sqlite (w.env.sqlite.headD {})
            (w.env.draws.headD fun _ => 0) reginerate w.ld).2
          env.sqlite := w.env.sqlite.tail
          env.draws := w.env.draws.tail
          log := w.log ++ [.generate reginerate
            (generateSecretKey 15 (w.env.draws.headD fun _ => 0))
            (Local.generatejwtSecret pl.sqlite (w.env.sqlite.headD {})
              (w.env.draws.headD fun _ => 0) reginerate w.ld).1] } := rfl

/-- The state behind `get_secret_jwt`. -/
def afterSecret (pl : Platform) (w : World) : World :=
  if w.ld.data.secretjwt = [] then endState (generatejwtSecret pl false) w else w

theorem getSecretJwt_run (pl : Platform) (w : World) :
    getSecretJwt pl w =
      .ok (afterSecret pl w).ld.data.secretjwt (afterSecret pl w) := by
  unfold getSecretJwt afterSecret
  by_cases hCache : w.ld.data.secretjwt = []
  · simp only [get_bind_run, ite_run, hCache, if_true,
      bind_of_ok (generatejwtSecret_run pl false w), endState, generatejwtSecret_run]
    rfl
  · simp only [get_bind_run, ite_run, hCache, if_false]
    rfl

@[simp] theorem azsDb_afterSecret (pl : Platform) (w : World) :
    (afterSecret pl w).azsDb = w.azsDb := by
  unfold afterSecret
  split_ifs
  · rfl
  · rfl

@[simp] theorem mysql_afterSecret (pl : Platform) (w : World) :
    (afterSecret pl w).mysql = w.mysql := by
  unfold afterSecret
  split_ifs
  · rfl
  · rfl

@[simp] theorem response_afterSecret (pl : Platform) (w : World) :
    (afterSecret pl w).response = w.response := by
  unfold afterSecret
  split_ifs
  · rfl
  · rfl

@[simp] theorem now_afterSecret (pl : Platform) (w : World) :
    (afterSecret pl w).env.now = w.env.now := by
  unfold afterSecret
  split_ifs
  · rfl
  · rfl

@[simp] theorem sql_afterSecret (pl : Platform) (w : World) :
    (afterSecret pl w).env.sql = w.env.sql := by
  unfold afterSecret
  split_ifs
  · rfl
  · rfl

/-- `get_secret_jwt` writes at most the line of a generation. -/
theorem log_afterSecret (pl : Platform) (w : World) :
    ∃ more, (afterSecret pl w).log = w.log ++ more ∧
      ∀ e ∈ more, ∃ drawn returned, e = .generate false drawn returned := by
  unfold afterSecret
  by_cases hCache : w.ld.data.secretjwt = []
  · rw [if_pos hCache, endState, generatejwtSecret_run]
    refine ⟨_, rfl, fun e hMem => ?_⟩
    exact ⟨_, _, List.mem_singleton.mp hMem⟩
  · rw [if_neg hCache]
    exact ⟨[], (List.append_nil _).symm, fun e hMem => absurd hMem List.not_mem_nil⟩

section Runs

variable {pl : Platform} {token : Bytes}

theorem createToken_run (pl : Platform) (json : List (Bytes × Crow.Json)) (w : World) :
    createToken pl json w =
      .ok (pl.jwt.sign (afterSecret pl w).ld.data.secretjwt
          (payloadText (tokenClaims pl w.env.now json)))
        ((afterSecret pl w).observed (.signed (afterSecret pl w).ld.data.secretjwt
          (pl.jwt.sign (afterSecret pl w).ld.data.secretjwt
            (payloadText (tokenClaims pl w.env.now json))) w.azsDb.inUse)) := by
  unfold createToken
  rw [get_bind_run, bind_of_ok (getSecretJwt_run pl w)]
  rfl

theorem verifyToken_run_of_none (hPayload : tokenPayload pl token = none) (w : World) :
    verifyToken pl token w = .ok (false, .null) w := by
  unfold verifyToken
  rw [hPayload]
  rfl

theorem verifyToken_run_of_some {bare : Bytes} {payload : Crow.Json}
    (hPayload : tokenPayload pl token = some (bare, payload)) (w : World) :
    verifyToken pl token w =
      .ok (pl.jwt.verify (afterSecret pl w).ld.data.secretjwt bare, payload)
        ((afterSecret pl w).observed (.verified (afterSecret pl w).ld.data.secretjwt bare
          (pl.jwt.verify (afterSecret pl w).ld.data.secretjwt bare))) := by
  unfold verifyToken
  rw [hPayload]
  show (getSecretJwt pl >>= _) w = _
  rw [bind_of_ok (getSecretJwt_run pl w)]
  rfl

end Runs

end Server
end AzsServer
