import AzsServer.Jwt.SignedToken
import AzsServer.Server.SessionRoundTrip

/-!
# Session cookies over the token library

With the functions of `jwt-cpp` in the place of the library, the third part of a session token
is the base64url text of the 32 bytes of an HMAC.  The last character of such a text has two
bits that no byte needs, so there are three other tokens for the same session, and
`check_coockie` gives them the same role.  There are no more than these.
-/

namespace AzsServer
namespace Server

open Core Crow Jwt

section Tokens

variable {pl : Platform} {crypto : Crypto} {clock : TimePoint} {w : World}

/-- The text of a session that is signed. -/
def sessionText (pl : Platform) (issued : TimePoint) (userid : Int) : Bytes :=
  tokenText (payloadText (sessionClaims pl issued userid (decide (firstAdminId ≤ userid))))

theorem sessionToken_eq (hJwt : pl.jwt = jwtLib crypto clock) (key : Bytes) (issued : TimePoint)
    (userid : Int) :
    sessionToken pl key issued userid (decide (firstAdminId ≤ userid)) =
      signedText (sessionText pl issued userid)
        (writePart (crypto.hmac key (sessionText pl issued userid))) := by
  rw [sessionToken, hJwt]
  rfl

/-- The claims of a session are no dates. -/
theorem sessionClaims_notMem_dateKeys (pl : Platform) (time : TimePoint) (userid : Int)
    (admin : Bool) : ∀ claim ∈ sessionClaims pl time userid admin, claim.1 ∉ dateKeys := by
  have hKeys : (sessionClaims pl time userid admin).map Prod.fst =
      [ascii "admin", ascii "time_create", ascii "user_id"] := by
    cases admin with
    | false => rfl
    | true => rfl
  have hNone : ∀ name ∈ [ascii "admin", ascii "time_create", ascii "user_id"], name ∉ dateKeys := by
    decide
  intro claim hMem
  exact hNone claim.1 (hKeys ▸ List.mem_map_of_mem hMem)

/-- The role of a token with the text of a session is the one of the session, if the third part
is a text of the HMAC, and any other third part makes the token useless. -/
theorem tokenRole_sessionText (hJwt : pl.jwt = jwtLib crypto clock) (hZone : pl.zone.Constant)
    (issued : TimePoint) (userid : Int) {signature : Bytes} (hText : JwtText signature) :
    tokenRole pl w (signedText (sessionText pl issued userid) signature) =
      if signature ∈ base64url.spellings
          (crypto.hmac (sessionKey pl w) (sessionText pl issued userid)) then
        sessionRole userid issued w.env.now
      else -1 := by
  have hLoad := load_sessionClaims pl issued userid (decide (firstAdminId ≤ userid))
  have hRole := payloadRole_sessionPayload hZone issued w.env.now userid
    (decide (firstAdminId ≤ userid))
  simp only [decide_eq_true_eq] at hRole
  have hVerify := verify_tokenText crypto clock (sessionKey pl w)
    (sessionClaims_notMem_dateKeys pl issued userid (decide (firstAdminId ≤ userid))) signature
  rw [readPart_eq_some_iff hText, ← sessionText] at hVerify
  have hDecode : pl.jwt.decode (signedText (sessionText pl issued userid) signature) =
      (readPart signature).map fun _ =>
        payloadText (sessionClaims pl issued userid (decide (firstAdminId ≤ userid))) := by
    rw [hJwt]
    show (decode crypto _).map _ = _
    rw [sessionText, decode_tokenText, Option.map_map]
    rfl
  rw [tokenRole, hDecode]
  cases hRead : readPart signature with
  | none =>
      -- what cannot be read stands for no bytes at all
      rw [if_neg]
      · rfl
      · intro hMem
        rw [(readPart_eq_some_iff hText).mpr hMem] at hRead
        cases hRead
  | some bytes =>
      rw [Option.map_some, Option.bind_eq_bind, Option.bind_some, hLoad, hJwt]
      exact if_congr hVerify hRole rfl

end Tokens

/-- The login issues one of four tokens that differ in the last character only.  As long as the
secret is the same, each of the four gives the role of the session when it is sent back among
other cookies, and the same text with any other third part gives none. -/
theorem session_token_spellings (pl : Platform) (crypto : Crypto) (clock : TimePoint)
    (con : Connection) (issued checked : World) (login : Request) (userid : Int) (key : Bytes)
    (before after : List (Bytes × Bytes)) (hJwt : pl.jwt = jwtLib crypto clock)
    (hHmac : ∀ text, (crypto.hmac key text).length = 32) (hZone : pl.zone.Constant)
    (hAccepted : LoginAccepted pl issued login.body con userid)
    (hIssueKey : sessionKey pl issued = key) (hCheckKey : sessionKey pl checked = key)
    (hOthers : ∀ cookie ∈ before ++ after,
      CookiePair cookie ∧ PlainPair cookie ∧ cookie.1 ≠ ascii "refresh_token") :
    ∃ (text first : Bytes) (signatures : List Bytes) (next : World),
      authPost pl login issued = .ok ⟨⟩ next ∧
      next.response.headers = issued.response.headers ++ [tokenHeader (signedText text first)] ∧
      first ∈ signatures ∧ signatures.Nodup ∧ signatures.length = 4 ∧
      (∀ signature ∈ signatures, signature.dropLast = first.dropLast) ∧
      ∀ signature, JwtText signature → ∀ check : Request,
        check.cookie = cookieHeader
            (before ++ (ascii "refresh_token", signedText text signature) :: after) →
          ∃ seen, checkCoockie pl check checked =
            .ok (if signature ∈ signatures then
              sessionRole userid issued.env.now checked.env.now else -1) seen := by
  obtain ⟨next, hRun, hHeaders⟩ := authPost_sets_token hAccepted
  rw [hIssueKey, sessionToken_eq hJwt] at hHeaders
  have hFour := base64url.length_spellings (crypto.hmac key (sessionText pl issued.env.now userid))
  rw [hHmac] at hFour
  refine ⟨_, _, base64url.spellings (crypto.hmac key (sessionText pl issued.env.now userid)), next,
    hRun, hHeaders, writePart_mem _, base64url.nodup_spellings _, hFour,
    fun signature hMem => base64url.dropLast_spellings hMem (writePart_mem _), ?_⟩
  intro signature hText check hCookie
  have hToken : JwtText (signedText (sessionText pl issued.env.now userid) signature) :=
    jwtText_tokenText _ hText
  have hLoad : load (parseCookie check.cookie) = some (.object (stringMembers _)) :=
    (congrArg (fun cookie => load (parseCookie cookie)) hCookie).trans (load_cookies
      (fun cookie hMem => ⟨(hOthers cookie hMem).1, (hOthers cookie hMem).2.1⟩) hToken)
  have hMember := @member_stringMembers before after (ascii "refresh_token")
    (signedText (sessionText pl issued.env.now userid) signature)
      fun cookie hMem => (hOthers cookie (List.mem_append_left after hMem)).2.2
  have hRole : cookieRole pl check checked = some (tokenRole pl checked _) :=
    cookieRole_of_token hToken (by simp [signedText]) hLoad hMember
  rw [tokenRole_sessionText hJwt hZone _ _ hText, hCheckKey] at hRole
  exact checkCoockie_of_cookieRole hRole

/-- The checksum of a text in 32 bytes, for the examples. -/
def checksum (key text : Bytes) : Bytes :=
  List.replicate 32 ((key ++ text).foldl (fun sum c => 31 * sum + c) 0)

/-- The clerk's server over the library. -/
def tokenPlatform : Platform :=
  { clerkPlatform with jwt := jwtLib ⟨checksum, fun _ => none⟩ .epoch }

/-- After 99 minutes the four tokens of a clerk pass. -/
theorem clerk_tokens_after_99_minutes :
    ∃ (text first : Bytes) (signatures : List Bytes) (next : World),
      authPost tokenPlatform clerkRequest (keyedWorld .epoch) = .ok ⟨⟩ next ∧
      next.response.headers = [tokenHeader (signedText text first)] ∧
      first ∈ signatures ∧ signatures.Nodup ∧ signatures.length = 4 ∧
      (∀ signature ∈ signatures, signature.dropLast = first.dropLast) ∧
      ∀ signature, JwtText signature → ∀ check : Request,
        check.cookie = cookieHeader ([(ascii "theme", ascii "dark")] ++
            (ascii "refresh_token", signedText text signature) :: []) →
          ∃ seen, checkCoockie tokenPlatform check (keyedWorld ⟨99 * 60 * 10 ^ 9, by decide⟩) =
            .ok (if signature ∈ signatures then
              sessionRole 7 .epoch ⟨99 * 60 * 10 ^ 9, by decide⟩ else -1) seen := by
  have hAccepted : LoginAccepted tokenPlatform (keyedWorld .epoch) clerkRequest.body
      ⟨{}, true⟩ 7 := ⟨rfl, rfl, by decide +kernel⟩
  have hOthers : ∀ cookie ∈ [(ascii "theme", ascii "dark")] ++ ([] : List (Bytes × Bytes)),
      CookiePair cookie ∧ PlainPair cookie ∧ cookie.1 ≠ ascii "refresh_token" := by
    intro cookie hMem
    obtain rfl := List.mem_singleton.mp hMem
    exact ⟨⟨by decide, by decide, by decide, by decide, by decide, by decide⟩,
      ⟨⟨by decide, by decide⟩, ⟨by decide, by decide⟩, by decide, by decide⟩, by decide⟩
  exact session_token_spellings tokenPlatform ⟨checksum, fun _ => none⟩ .epoch ⟨{}, true⟩
    (keyedWorld .epoch) (keyedWorld ⟨99 * 60 * 10 ^ 9, by decide⟩) clerkRequest 7 (ascii "key")
    [(ascii "theme", ascii "dark")] [] rfl (fun _ => List.length_replicate) TimeZone.utc_constant
    hAccepted rfl rfl hOthers

end Server
end AzsServer
