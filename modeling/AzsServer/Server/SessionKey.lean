import AzsServer.Library.Runs
import AzsServer.Server.Token

/-!
# The key of the sessions

`get_secret_jwt` ignores whether `generatejwt_secret` has found or made a secret
and returns the cache.  While the cache is empty, every call that fails to fill it
hands out the empty key.  It is shown exactly which calls then sign under it or
accept a token under it.
-/

namespace AzsServer
namespace Server

open Core Library Local

/-- A call of the session functions or of `generatejwt_secret(true)`. -/
inductive SessionCall where
  | create (json : List (Bytes × Crow.Json))
  | verify (token : Bytes)
  | regenerate

/-- The program of a call. -/
def SessionCall.run (pl : Platform) : SessionCall → Prog Unit
  | .create json => discard (createToken pl json)
  | .verify token => discard (verifyToken pl token)
  | .regenerate => discard (generatejwtSecret pl true)

/-- One call under what the environment delivers for it. -/
def sessionStep (pl : Platform) (w : World) (event : SessionCall × Env) : Option World :=
  some (endState (event.1.run pl) (w.under event.2))

/-- No token was signed, and none was accepted, under the empty key. -/
def EmptyKeyUnused (log : List Entry) : Prop :=
  ∀ token, (∀ inUse, .signed [] token inUse ∉ log) ∧ .verified [] token true ∉ log

/-- The cache holds a secret, or the next call of `generatejwt_secret(false)` fills
it: the `SELECT` compiles, and it delivers a row that is not empty or, without a
row, the `INSERT` succeeds. -/
def SecretAvailable (ld : LocalState) (o : SqliteOutcome) : Prop :=
  ld.data.secretjwt ≠ [] ∨
    (o.prepare = true ∧
      match firstRow o ld.tables.jwt with
      | some (_, row) => cStr row ≠ []
      | none => o.exec = true)

/-- The condition on a call: a secret is available; or, for a token to verify, the
call does not come to the key, or the token is not signed under the empty key. -/
def KeyUsable (pl : Platform) (w : World) (event : SessionCall × Env) : Prop :=
  match event.1 with
  | .create _ => SecretAvailable w.ld (event.2.sqlite.headD {})
  | .verify token =>
      SecretAvailable w.ld (event.2.sqlite.headD {}) ∨
        ∀ bare payload, tokenPayload pl token = some (bare, payload) →
          pl.jwt.verify [] bare = false
  | .regenerate => True

/-- Filling the empty cache. -/
theorem secretjwt_generate_eq_nil_iff (engine : SqliteEngine) (o : SqliteOutcome)
    (dis : Nat → Fin 36) {ld : LocalState} (hCache : ld.data.secretjwt = []) :
    (Local.generatejwtSecret engine o dis false ld).2.data.secretjwt = [] ↔
      ¬ SecretAvailable ld o := by
  have hNe := generateSecretKey_ne_nil dis
  cases hPrepare : o.prepare with
  | false => simp [Local.generatejwtSecret, SecretAvailable, hPrepare, hCache]
  | true =>
      cases hRow : firstRow o ld.tables.jwt with
      | some found => simp [Local.generatejwtSecret, SecretAvailable, hPrepare, hCache, hRow]
      | none =>
          cases hExec : o.exec with
          | false =>
              simp [Local.generatejwtSecret, SecretAvailable, hPrepare, hCache, hRow,
                execSql_insertJwt, hExec]
          | true =>
              simp [Local.generatejwtSecret, SecretAvailable, hPrepare, hCache, hRow,
                execSql_insertJwt, hExec, hNe]

/-- `get_secret_jwt` hands out the empty key exactly when no secret is available. -/
theorem secretjwt_afterSecret_eq_nil_iff (pl : Platform) (w : World) :
    (afterSecret pl w).ld.data.secretjwt = [] ↔
      ¬ SecretAvailable w.ld (w.env.sqlite.headD {}) := by
  unfold afterSecret
  by_cases hCache : w.ld.data.secretjwt = []
  · rw [if_pos hCache, endState, generatejwtSecret_run]
    exact secretjwt_generate_eq_nil_iff pl.sqlite _ _ hCache
  · rw [if_neg hCache]
    simp [SecretAvailable, hCache]

/-- Generations do not use a key. -/
theorem emptyKeyUnused_append_generate_iff {log more : List Entry}
    (hMore : ∀ e ∈ more, ∃ reginerate drawn returned, e = .generate reginerate drawn returned) :
    EmptyKeyUnused (log ++ more) ↔ EmptyKeyUnused log := by
  have hNone : ∀ e ∈ more, ∀ token,
      (∀ inUse, e ≠ .signed [] token inUse) ∧ e ≠ .verified [] token true := by
    intro e hMem token
    obtain ⟨reginerate, drawn, returned, rfl⟩ := hMore e hMem
    exact ⟨by simp, by simp⟩
  constructor
  · intro hUnused token
    exact ⟨fun inUse hMem => (hUnused token).1 inUse (List.mem_append_left _ hMem),
      fun hMem => (hUnused token).2 (List.mem_append_left _ hMem)⟩
  · intro hUnused token
    constructor
    · intro inUse hMem
      rcases List.mem_append.mp hMem with hOld | hNew
      · exact (hUnused token).1 inUse hOld
      · exact (hNone _ hNew token).1 inUse rfl
    · intro hMem
      rcases List.mem_append.mp hMem with hOld | hNew
      · exact (hUnused token).2 hOld
      · exact (hNone _ hNew token).2 rfl

theorem emptyKeyUnused_append_signed_iff {log : List Entry} {key token : Bytes}
    {inUse : Option MysqlConnInfo} (hUnused : EmptyKeyUnused log) :
    EmptyKeyUnused (log ++ [.signed key token inUse]) ↔ key ≠ [] := by
  constructor
  · rintro hAfter rfl
    exact (hAfter token).1 inUse (by simp)
  · intro hKey other
    refine ⟨?_, ?_⟩
    · simp [(hUnused other).1, hKey.symm]
    · simp [(hUnused other).2]

theorem emptyKeyUnused_append_verified_iff {log : List Entry} {key token : Bytes}
    {accepted : Bool} (hUnused : EmptyKeyUnused log) :
    EmptyKeyUnused (log ++ [.verified key token accepted]) ↔
      (key = [] → accepted = false) := by
  constructor
  · rintro hAfter rfl
    cases accepted with
    | false => rfl
    | true => exact absurd (by simp) (hAfter token).2
  · intro hRejected other
    refine ⟨by simp [(hUnused other).1], ?_⟩
    cases accepted with
    | false => simp [(hUnused other).2]
    | true =>
        have hKey : key ≠ [] := fun hNil => absurd (hRejected hNil) (by simp)
        simp [(hUnused other).2, hKey.symm]

/-- One call: the empty key stays unused exactly when the key is usable. -/
theorem emptyKeyUnused_step_iff (pl : Platform) {w next : World}
    {event : SessionCall × Env} (hUnused : EmptyKeyUnused w.log)
    (hStep : sessionStep pl w event = some next) :
    EmptyKeyUnused next.log ↔ KeyUsable pl w event := by
  obtain ⟨call, env⟩ := event
  obtain rfl : endState (call.run pl) (w.under env) = next := by
    simpa [sessionStep] using hStep
  have hAfter : EmptyKeyUnused (afterSecret pl (w.under env)).log := by
    obtain ⟨more, hLog, hMore⟩ := log_afterSecret pl (w.under env)
    rw [hLog, emptyKeyUnused_append_generate_iff]
    · exact hUnused
    · intro e hMem
      obtain ⟨drawn, returned, hEntry⟩ := hMore e hMem
      exact ⟨false, drawn, returned, hEntry⟩
  have hKey := secretjwt_afterSecret_eq_nil_iff pl (w.under env)
  cases call with
  | create json =>
      have hRun : endState (SessionCall.run pl (.create json)) (w.under env) =
          (afterSecret pl (w.under env)).observed
            (.signed (afterSecret pl (w.under env)).ld.data.secretjwt
              (pl.jwt.sign (afterSecret pl (w.under env)).ld.data.secretjwt
                (payloadText (tokenClaims pl env.now json))) w.azsDb.inUse) :=
        endState_discard (createToken_run pl json _)
      rw [hRun]
      show EmptyKeyUnused (_ ++ [_]) ↔ SecretAvailable w.ld (env.sqlite.headD {})
      rw [emptyKeyUnused_append_signed_iff hAfter, ne_eq, hKey, not_not]
      rfl
  | verify token =>
      cases hPayload : tokenPayload pl token with
      | none =>
          -- the call ends before it comes to the key
          have hRun : endState (SessionCall.run pl (.verify token)) (w.under env) =
              (w.under env) :=
            endState_discard (verifyToken_run_of_none hPayload _)
          rw [hRun]
          refine iff_of_true hUnused (Or.inr fun bare payload hSome => ?_)
          rw [hPayload] at hSome
          cases hSome
      | some found =>
          obtain ⟨bare, payload⟩ := found
          have hRun : endState (SessionCall.run pl (.verify token)) (w.under env) =
              (afterSecret pl (w.under env)).observed
                (.verified (afterSecret pl (w.under env)).ld.data.secretjwt bare
                  (pl.jwt.verify (afterSecret pl (w.under env)).ld.data.secretjwt
                    bare)) :=
            endState_discard (verifyToken_run_of_some hPayload _)
          rw [hRun]
          show EmptyKeyUnused (_ ++ [_]) ↔
            SecretAvailable w.ld (env.sqlite.headD {}) ∨
              ∀ b p, tokenPayload pl token = some (b, p) → pl.jwt.verify [] b = false
          rw [emptyKeyUnused_append_verified_iff hAfter, hKey]
          by_cases hAvailable : SecretAvailable w.ld (env.sqlite.headD {})
          · exact iff_of_true (fun hNot => absurd hAvailable hNot) (Or.inl hAvailable)
          · have hNil : (afterSecret pl (w.under env)).ld.data.secretjwt = [] :=
              hKey.mpr hAvailable
            have hForall : (∀ b p, tokenPayload pl token = some (b, p) →
                pl.jwt.verify [] b = false) ↔ pl.jwt.verify [] bare = false := by
              constructor
              · exact fun hAll => hAll bare payload hPayload
              · intro hBare b p hSome
                obtain ⟨rfl, rfl⟩ : bare = b ∧ payload = p := by simpa [hPayload] using hSome
                exact hBare
            rw [hNil, hForall]
            exact ⟨fun hBare => Or.inr (hBare hAvailable),
              fun hOr _ => hOr.resolve_left hAvailable⟩
  | regenerate =>
      have hRun : endState (SessionCall.run pl .regenerate) (w.under env) =
          endState (generatejwtSecret pl true) (w.under env) :=
        endState_discard rfl
      rw [hRun, endState, generatejwtSecret_run]
      refine iff_of_true ?_ trivial
      refine (emptyKeyUnused_append_generate_iff fun e hMem => ?_).mpr hUnused
      exact ⟨_, _, _, List.mem_singleton.mp hMem⟩

/-- A run of session calls keeps the empty key unused exactly when the key is usable
at every call. -/
theorem emptyKeyUnused_iff_keyUsable (pl : Platform) (w : World)
    (calls : List (SessionCall × Env)) :
    EveryPrefix (sessionStep pl) (fun _ s => EmptyKeyUnused s.log) { w with log := [] } calls ↔
      StepsMeet (sessionStep pl) (KeyUsable pl) { w with log := [] } calls := by
  have hEmpty : EmptyKeyUnused ([] : List Entry) := fun token => ⟨by simp, by simp⟩
  have hTotal : ∀ s, ∃ final, runSteps (sessionStep pl) s calls = some final := by
    induction calls with
    | nil => exact fun s => ⟨s, rfl⟩
    | cons call calls ih => exact fun s => ih (endState (call.1.run pl) (s.under call.2))
  obtain ⟨final, hRun⟩ := hTotal { w with log := [] }
  refine everyPrefix_iff_stepsMeet (fun _ => True) (fun _ => True) trivial hEmpty ?_
    (fun _ _ => trivial) hRun
  intro done s event next _ hGood _ hStep
  exact ⟨emptyKeyUnused_step_iff pl hGood hStep, fun _ => trivial⟩

/-- On a new file, a `SELECT` that does not compile leaves the cache empty, and the
token is signed under the empty key. -/
theorem empty_key_signs_when_select_fails :
    ¬ EveryPrefix (sessionStep .plain) (fun _ s => EmptyKeyUnused s.log)
      { World.fresh with log := [] }
      [(.create [], { now := .epoch, sqlite := [{ prepare := false }] })] := by
  intro hEvery
  have hUnused := hEvery _ [] _ (List.append_nil _).symm rfl
  exact (hUnused (Platform.plain.jwt.sign []
    (payloadText (tokenClaims .plain .epoch [])))).1 none
      (List.mem_append_right _ (by decide))

end Server
end AzsServer
