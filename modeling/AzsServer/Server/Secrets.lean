import AzsServer.Server.Logins

/-!
# The secret of the sessions over a run

The table `jwt` holds at most one row, and the cache holds the secret of this row or
nothing.  A session lives while the secret it was signed under is the one in the
table; when no secret is drawn twice, a regeneration ends every session, and reading
the secret starts none.
-/

namespace AzsServer
namespace Server

open Core Library Local

/-- All calls of SQLite succeed. -/
def Env.SqliteWorks (env : Env) : Prop := ∀ o ∈ env.sqlite, o = {}

instance (env : Env) : Decidable env.SqliteWorks :=
  inferInstanceAs (Decidable (∀ o ∈ env.sqlite, o = {}))

/-- The secret that was drawn for a line of the log. -/
def Entry.drawn? : Entry → Option Bytes
  | .generate _ drawn _ => some drawn
  | _ => none

/-- The secrets that have been drawn so far. -/
def drawnSecrets (log : List Entry) : List Bytes :=
  log.filterMap Entry.drawn?

theorem drawnSecrets_append (log more : List Entry) :
    drawnSecrets (log ++ more) = drawnSecrets log ++ drawnSecrets more :=
  List.filterMap_append

/-- A property of the tokens that have been accepted. -/
def Entry.ifAccepted (p : Bytes → Bytes → Prop) : Entry → Prop
  | .verified key token true => p key token
  | _ => True

theorem forall_accepted_iff {p : Bytes → Bytes → Prop} {lines : List Entry} :
    (∀ e ∈ lines, e.ifAccepted p) ↔ ∀ key token, .verified key token true ∈ lines → p key token := by
  constructor
  · exact fun hAll key token hMem => hAll _ hMem
  · intro hAll e hMem
    cases e with
    | verified key token accepted =>
        cases accepted with
        | true => exact hAll key token hMem
        | false => trivial
    | _ => trivial

instance {p : Bytes → Bytes → Prop} [∀ key token, Decidable (p key token)] :
    DecidablePred (Entry.ifAccepted p)
  | .verified key token true => inferInstanceAs (Decidable (p key token))
  | .verified _ _ false => isTrue trivial
  | .select _ _ => isTrue trivial
  | .update _ _ => isTrue trivial
  | .login _ _ _ => isTrue trivial
  | .generate _ _ _ => isTrue trivial
  | .signed _ _ _ => isTrue trivial
  | .connecting _ => isTrue trivial

/-- The connection data over which a token was issued under a key, if a line tells so. -/
def Entry.issuedOver? (key token : Bytes) : Entry → Option (Option MysqlConnInfo)
  | .signed k t inUse => if k = key ∧ t = token then some inUse else none
  | _ => none

/-- The connection data over which a token was issued under a key. -/
def issuedOver (key token : Bytes) (log : List Entry) : List (Option MysqlConnInfo) :=
  log.filterMap (Entry.issuedOver? key token)

theorem mem_issuedOver {key token : Bytes} {log : List Entry} {inUse : Option MysqlConnInfo} :
    inUse ∈ issuedOver key token log ↔ .signed key token inUse ∈ log := by
  unfold issuedOver
  rw [List.mem_filterMap]
  constructor
  · rintro ⟨e, hMem, hIssued⟩
    cases e with
    | signed k t used =>
        simp only [Entry.issuedOver?] at hIssued
        split_ifs at hIssued with hSame
        obtain ⟨rfl, rfl⟩ := hSame
        cases hIssued
        exact hMem
    | _ => cases hIssued
  · intro hMem
    exact ⟨_, hMem, by simp [Entry.issuedOver?]⟩

/-- What may be assumed of an event that leads from one state to another: SQLite works,
no secret is drawn twice, and `verify_token` accepts only what `create_token` has signed
under the same key. -/
structure IdealStep (env : Env) (start w : World) : Prop where
  sqlite : env.SqliteWorks
  distinct : (drawnSecrets w.log).Nodup
  unforged : ∀ key token, .verified key token true ∈ w.linesSince start →
    issuedOver key token start.log ≠ []

instance (env : Env) (start w : World) : Decidable (IdealStep env start w) :=
  decidable_of_iff (env.SqliteWorks ∧ (drawnSecrets w.log).Nodup ∧
      ∀ e ∈ w.linesSince start,
        e.ifAccepted fun key token => issuedOver key token start.log ≠ [])
    ⟨fun h => ⟨h.1, h.2.1, forall_accepted_iff.mp h.2.2⟩,
      fun h => ⟨h.sqlite, h.distinct, forall_accepted_iff.mpr h.unforged⟩⟩

/-- What the table, the cache and the log have to do with each other. -/
structure SecretKept (w : World) : Prop where
  row : w.ld.tables.jwt = .empty ∨
    ∃ secret ∈ drawnSecrets w.log, w.ld.tables.jwt = .single 1 secret
  cache : w.ld.data.secretjwt = [] ∨ w.ld.tables.jwt = .single 1 w.ld.data.secretjwt
  drawn : ∀ secret ∈ drawnSecrets w.log, ∃ dis, secret = generateSecretKey 15 dis
  signed : ∀ key token inUse, .signed key token inUse ∈ w.log → key ∈ drawnSecrets w.log

/-- The token was signed under the secret that the table holds. -/
structure LiveSession (w : World) (key token : Bytes) (inUse : Option MysqlConnInfo) :
    Prop where
  row : w.ld.tables.jwt = .single 1 key
  signed : .signed key token inUse ∈ w.log

section Generation

variable {pl : Platform} {w : World} {key token : Bytes} {inUse : Option MysqlConnInfo}

theorem Env.SqliteWorks.head {env : Env} (hWorks : env.SqliteWorks) :
    env.sqlite.headD {} = {} := by
  cases hSqlite : env.sqlite with
  | nil => rfl
  | cons o rest => exact hWorks o (by rw [hSqlite]; exact List.mem_cons_self)

theorem Env.SqliteWorks.tail {env : Env} (hWorks : env.SqliteWorks) :
    ∀ o ∈ env.sqlite.tail, o = {} :=
  fun o hMem => hWorks o (List.mem_of_mem_tail hMem)

theorem single_inj {old new : Bytes}
    (hSame : (RowTable.single 1 old : RowTable Bytes) = .single 1 new) : old = new := by
  have hRows : [((1 : Int), old)] = [(1, new)] := congrArg RowTable.rows hSame
  simpa using hRows

/-- The state after a drawn secret has become the only row. -/
def stored (reginerate : Bool) (secret : Bytes) (w : World) : World :=
  { w with
    ld := w.ld.storing secret
    env.sqlite := w.env.sqlite.tail
    env.draws := w.env.draws.tail
    log := w.log ++ [.generate reginerate secret secret] }

/-- The state after the secret of the row has come into the cache; the drawn one is
lost. -/
def loaded (drawn secret : Bytes) (w : World) : World :=
  { w with
    ld.data.secretjwt := secret
    env.sqlite := w.env.sqlite.tail
    env.draws := w.env.draws.tail
    log := w.log ++ [.generate false drawn secret] }

/-- A regeneration stores a new secret. -/
theorem generate_true_eq (pl : Platform) (hKept : SecretKept w) (hWorks : w.env.SqliteWorks) :
    ∃ dis, endState (generatejwtSecret pl true) w =
      stored true (generateSecretKey 15 dis) w := by
  refine ⟨w.env.draws.headD fun _ => 0, ?_⟩
  rw [endState, generatejwtSecret_run, hWorks.head]
  rcases hKept.row with hEmpty | ⟨secret, -, hSingle⟩
  · simp only [generatejwtSecret_of_empty _ _ true hEmpty, stored]
  · simp only [generatejwtSecret_true_of_single _ _ hSingle, stored]

/-- Reading the secret stores one, loads the stored one, or finds it in the cache. -/
theorem afterSecret_cases (pl : Platform) (hKept : SecretKept w) (hWorks : w.env.SqliteWorks) :
    (w.ld.tables.jwt = .empty ∧ ∃ dis,
        afterSecret pl w = stored false (generateSecretKey 15 dis) w) ∨
      (∃ dis, ∃ secret ∈ drawnSecrets w.log, w.ld.tables.jwt = .single 1 secret ∧
        afterSecret pl w = loaded (generateSecretKey 15 dis) secret w) ∨
      (w.ld.data.secretjwt ≠ [] ∧ w.ld.tables.jwt = .single 1 w.ld.data.secretjwt ∧
        afterSecret pl w = w) := by
  by_cases hCache : w.ld.data.secretjwt = []
  · rw [afterSecret, if_pos hCache, endState, generatejwtSecret_run, hWorks.head]
    rcases hKept.row with hEmpty | ⟨secret, hDrawn, hSingle⟩
    · refine Or.inl ⟨hEmpty, w.env.draws.headD fun _ => 0, ?_⟩
      simp only [generatejwtSecret_of_empty _ _ false hEmpty, stored]
    · obtain ⟨dis, hSecret⟩ := hKept.drawn secret hDrawn
      have hText : cStr secret = secret := by
        rw [hSecret]
        exact cStr_eq_self (unquoted_generateSecretKey 15 dis).2
      refine Or.inr (Or.inl ⟨w.env.draws.headD fun _ => 0, secret, hDrawn, hSingle, ?_⟩)
      simp only [generatejwtSecret_false_of_single _ _ hSingle, hText, loaded]
  · rw [afterSecret, if_neg hCache]
    exact Or.inr (Or.inr ⟨hCache, hKept.cache.resolve_left hCache, rfl⟩)

theorem drawnSecrets_generate (log : List Entry) (reginerate : Bool) (drawn returned : Bytes) :
    drawnSecrets (log ++ [.generate reginerate drawn returned]) = drawnSecrets log ++ [drawn] :=
  drawnSecrets_append log _

theorem mem_log_generate {log : List Entry} {reginerate : Bool} {drawn returned : Bytes}
    (hSigned : Entry.signed key token inUse ∈ log ++ [.generate reginerate drawn returned]) :
    Entry.signed key token inUse ∈ log := by
  rcases List.mem_append.mp hSigned with hOld | hNew
  · exact hOld
  · cases List.mem_singleton.mp hNew

theorem SecretKept.stored (hKept : SecretKept w) (reginerate : Bool) (dis : Nat → Fin 36) :
    SecretKept (stored reginerate (generateSecretKey 15 dis) w) where
  row := by
    refine Or.inr ⟨generateSecretKey 15 dis, ?_, rfl⟩
    show _ ∈ drawnSecrets (w.log ++ [_])
    rw [drawnSecrets_generate]
    exact List.mem_append_right _ List.mem_cons_self
  cache := Or.inr rfl
  drawn secret hMem := by
    have hMem : secret ∈ drawnSecrets (w.log ++ [_]) := hMem
    rw [drawnSecrets_generate] at hMem
    rcases List.mem_append.mp hMem with hOld | hNew
    · exact hKept.drawn secret hOld
    · exact ⟨dis, List.mem_singleton.mp hNew⟩
  signed key token inUse hSigned := by
    show key ∈ drawnSecrets (w.log ++ [_])
    rw [drawnSecrets_append]
    exact List.mem_append_left _ (hKept.signed key token inUse (mem_log_generate hSigned))

theorem SecretKept.loaded (hKept : SecretKept w) (dis : Nat → Fin 36) {secret : Bytes}
    (hDrawn : secret ∈ drawnSecrets w.log) (hRow : w.ld.tables.jwt = .single 1 secret) :
    SecretKept (loaded (generateSecretKey 15 dis) secret w) where
  row := by
    refine Or.inr ⟨secret, ?_, hRow⟩
    show secret ∈ drawnSecrets (w.log ++ [_])
    rw [drawnSecrets_append]
    exact List.mem_append_left _ hDrawn
  cache := Or.inr hRow
  drawn other hMem := by
    have hMem : other ∈ drawnSecrets (w.log ++ [_]) := hMem
    rw [drawnSecrets_generate] at hMem
    rcases List.mem_append.mp hMem with hOld | hNew
    · exact hKept.drawn other hOld
    · exact ⟨dis, List.mem_singleton.mp hNew⟩
  signed key token inUse hSigned := by
    show key ∈ drawnSecrets (w.log ++ [_])
    rw [drawnSecrets_append]
    exact List.mem_append_left _ (hKept.signed key token inUse (mem_log_generate hSigned))

/-- A stored secret that was not drawn before has signed nothing. -/
theorem not_liveSession_stored {reginerate : Bool} {secret : Bytes} (hKept : SecretKept w)
    (hFresh : (drawnSecrets (w.log ++ [.generate reginerate secret secret])).Nodup) :
    ¬ LiveSession (stored reginerate secret w) key token inUse := by
  rintro ⟨hRow, hSigned⟩
  have hKey : secret = key := single_inj hRow
  have hOld := hKept.signed key token inUse (mem_log_generate hSigned)
  rw [drawnSecrets_generate, List.nodup_append] at hFresh
  exact hFresh.2.2 key hOld secret List.mem_cons_self hKey.symm

end Generation

/-! ## The steps -/

section Steps

variable {pl : Platform} {w : World} {key token : Bytes} {inUse : Option MysqlConnInfo}

theorem SecretKept.afterSecret (hKept : SecretKept w) (hWorks : w.env.SqliteWorks) :
    SecretKept (afterSecret pl w) := by
  rcases afterSecret_cases pl hKept hWorks with
    ⟨-, dis, hEq⟩ | ⟨dis, secret, hDrawn, hRow, hEq⟩ | ⟨-, -, hEq⟩
  · rw [hEq]
    exact hKept.stored false dis
  · rw [hEq]
    exact hKept.loaded dis hDrawn hRow
  · rw [hEq]
    exact hKept

theorem sqliteWorks_afterSecret (hWorks : w.env.SqliteWorks) :
    (Server.afterSecret pl w).env.SqliteWorks := by
  unfold Server.afterSecret
  split_ifs
  · exact hWorks.tail
  · exact hWorks

/-- Every log goes on from the one before. -/
theorem nodup_of_afterSecret (hFresh : (drawnSecrets (Server.afterSecret pl w).log).Nodup) :
    (drawnSecrets w.log).Nodup := by
  obtain ⟨more, hLog, -⟩ := log_afterSecret pl w
  rw [hLog, drawnSecrets_append] at hFresh
  exact hFresh.of_append_left

/-- The secret that is handed out is the one in the table. -/
theorem row_afterSecret (hKept : SecretKept w) (hWorks : w.env.SqliteWorks) :
    (Server.afterSecret pl w).ld.tables.jwt =
      .single 1 (Server.afterSecret pl w).ld.data.secretjwt := by
  rcases afterSecret_cases pl hKept hWorks with
    ⟨-, dis, hEq⟩ | ⟨dis, secret, hDrawn, hRow, hEq⟩ | ⟨-, hRow, hEq⟩
  · rw [hEq]
    rfl
  · rw [hEq]
    exact hRow
  · rw [hEq]
    exact hRow

/-- Reading the secret starts no session. -/
theorem liveSession_of_afterSecret (hKept : SecretKept w) (hWorks : w.env.SqliteWorks)
    (hFresh : (drawnSecrets (Server.afterSecret pl w).log).Nodup)
    (hLive : LiveSession (Server.afterSecret pl w) key token inUse) :
    LiveSession w key token inUse := by
  rcases afterSecret_cases pl hKept hWorks with
    ⟨-, dis, hEq⟩ | ⟨dis, secret, hDrawn, hRow, hEq⟩ | ⟨-, -, hEq⟩
  · rw [hEq] at hLive hFresh
    exact absurd hLive (not_liveSession_stored hKept hFresh)
  · rw [hEq] at hLive
    exact ⟨hLive.row, mem_log_generate hLive.signed⟩
  · rw [hEq] at hLive
    exact hLive

/-- A token that was signed under the secret that is handed out belongs to a living
session. -/
theorem liveSession_of_handedOut (hKept : SecretKept w) (hWorks : w.env.SqliteWorks)
    (hFresh : (drawnSecrets (Server.afterSecret pl w).log).Nodup)
    (hSigned : .signed (Server.afterSecret pl w).ld.data.secretjwt token inUse ∈ w.log) :
    LiveSession w (Server.afterSecret pl w).ld.data.secretjwt token inUse := by
  obtain ⟨more, hLog, -⟩ := log_afterSecret pl w
  refine liveSession_of_afterSecret hKept hWorks hFresh ⟨row_afterSecret hKept hWorks, ?_⟩
  rw [hLog]
  exact List.mem_append_left _ hSigned

theorem SecretKept.regenerate (hKept : SecretKept w) (hWorks : w.env.SqliteWorks) :
    SecretKept (endState (generatejwtSecret pl true) w) := by
  obtain ⟨dis, hEq⟩ := generate_true_eq pl hKept hWorks
  rw [hEq]
  exact hKept.stored true dis

/-- A regeneration ends every session. -/
theorem not_liveSession_regenerate (hKept : SecretKept w) (hWorks : w.env.SqliteWorks)
    (hFresh : (drawnSecrets (endState (generatejwtSecret pl true) w).log).Nodup) :
    ¬ LiveSession (endState (generatejwtSecret pl true) w) key token inUse := by
  obtain ⟨dis, hEq⟩ := generate_true_eq pl hKept hWorks
  rw [hEq] at hFresh ⊢
  exact not_liveSession_stored hKept hFresh

/-- Lines that neither draw a secret nor sign a token. -/
def Entry.isQuiet : Entry → Prop
  | .generate _ _ _ => False
  | .signed _ _ _ => False
  | _ => True

theorem Entry.IsDatabaseLine.isQuiet {e : Entry} (hLine : e.isDatabaseLine) : e.isQuiet := by
  cases e with
  | select sql executed => trivial
  | update u executed => trivial
  | _ => exact hLine.elim

theorem LogGrows.drawnSecrets_eq {next : World} (hQuiet : LogGrows Entry.isQuiet w next) :
    drawnSecrets next.log = drawnSecrets w.log := by
  obtain ⟨more, hLog, hLines⟩ := hQuiet
  have hNone : drawnSecrets more = [] := by
    refine List.filterMap_eq_nil_iff.mpr fun e hMem => ?_
    cases e with
    | generate reginerate drawn returned => exact (hLines _ hMem).elim
    | _ => rfl
  rw [hLog, drawnSecrets_append, hNone, List.append_nil]

/-- Secrets that differ at the end have differed all the time. -/
theorem LogGrows.nodup {allowed : Entry → Prop} {next : World} (hGrows : LogGrows allowed w next)
    (hFresh : (drawnSecrets next.log).Nodup) : (drawnSecrets w.log).Nodup := by
  obtain ⟨more, hLog, -⟩ := hGrows
  rw [hLog, drawnSecrets_append] at hFresh
  exact hFresh.of_append_left

theorem LogGrows.signed {next : World} (hQuiet : LogGrows Entry.isQuiet w next)
    (hSigned : .signed key token inUse ∈ next.log) : .signed key token inUse ∈ w.log := by
  obtain ⟨more, hLog, hLines⟩ := hQuiet
  rw [hLog] at hSigned
  rcases List.mem_append.mp hSigned with hOld | hNew
  · exact hOld
  · exact (hLines _ hNew).elim

/-- A step that leaves the table `jwt` and the cache and writes quiet lines. -/
theorem SecretKept.quiet {next : World} (hKept : SecretKept w)
    (hJwt : next.ld.tables.jwt = w.ld.tables.jwt)
    (hCache : next.ld.data.secretjwt = [] ∨ next.ld.data.secretjwt = w.ld.data.secretjwt)
    (hLog : LogGrows Entry.isQuiet w next) : SecretKept next := by
  refine ⟨?_, ?_, ?_, fun key token inUse hSigned => ?_⟩
  · rw [hJwt, hLog.drawnSecrets_eq]
    exact hKept.row
  · rw [hJwt]
    rcases hCache with hNil | hSame
    · exact Or.inl hNil
    · rw [hSame]
      exact hKept.cache
  · rw [hLog.drawnSecrets_eq]
    exact hKept.drawn
  · rw [hLog.drawnSecrets_eq]
    exact hKept.signed key token inUse (hLog.signed hSigned)

theorem liveSession_of_quiet {next : World} (hJwt : next.ld.tables.jwt = w.ld.tables.jwt)
    (hLog : LogGrows Entry.isQuiet w next) (hLive : LiveSession next key token inUse) :
    LiveSession w key token inUse :=
  ⟨hJwt ▸ hLive.row, hLog.signed hLive.signed⟩

/-- A token signed under the secret of the table. -/
theorem SecretKept.signs (hKept : SecretKept w)
    (hRow : w.ld.tables.jwt = .single 1 w.ld.data.secretjwt) (token : Bytes)
    (inUse : Option MysqlConnInfo) :
    SecretKept (w.observed (.signed w.ld.data.secretjwt token inUse)) := by
  have hDrawn : drawnSecrets (w.log ++ [.signed w.ld.data.secretjwt token inUse]) =
      drawnSecrets w.log := by
    rw [drawnSecrets_append]
    exact List.append_nil _
  refine ⟨?_, hKept.cache, ?_, fun key other used hSigned => ?_⟩
  · show _ ∨ ∃ secret ∈ drawnSecrets (w.log ++ [_]), _
    rw [hDrawn]
    exact hKept.row
  · show ∀ secret ∈ drawnSecrets (w.log ++ [_]), _
    rw [hDrawn]
    exact hKept.drawn
  · show key ∈ drawnSecrets (w.log ++ [_])
    rw [hDrawn]
    rcases List.mem_append.mp hSigned with hOld | hNew
    · exact hKept.signed key other used hOld
    · cases List.mem_singleton.mp hNew
      rcases hKept.row with hEmpty | ⟨secret, hMem, hSingle⟩
      · rw [hEmpty] at hRow
        cases congrArg RowTable.rows hRow
      · rw [hSingle] at hRow
        exact single_inj hRow ▸ hMem

end Steps

/-! ## Saving connection data -/

/-- The statement that saves connection data leaves the table `jwt` alone, as every
statement does whose values contain no double quote. -/
def SparesJwt (engine : SqliteEngine) (info : MysqlConnInfo) (idLast : Int) : Prop :=
  ∀ tables next, sqlite3Exec engine tables (saveSql info idLast) = some next →
    next.jwt = tables.jwt

theorem sparesJwt_of_unquoted {engine : SqliteEngine} {info : MysqlConnInfo}
    (hUnquoted : info.Unquoted) (idLast : Int) : SparesJwt engine info idLast := by
  intro tables next hExec
  unfold saveSql at hExec
  split_ifs at hExec with hInsert
  · rw [sqlite3Exec_insertMysqlDb engine tables hUnquoted.readAs] at hExec
    cases hExec
    rfl
  · rw [sqlite3Exec_updateMysqlDb engine tables hUnquoted.readAs] at hExec
    cases hExec
    rfl

/-- Saving keeps the secret. -/
theorem setMysqlConnInfo_secret {engine : SqliteEngine} {info : MysqlConnInfo} {s : LocalState}
    (hSpares : SparesJwt engine info s.data.idLast) (o : SqliteOutcome) :
    (Local.setMysqlConnInfo engine o info s).2.tables.jwt = s.tables.jwt ∧
      (Local.setMysqlConnInfo engine o info s).2.data = s.data := by
  unfold Local.setMysqlConnInfo
  cases hExec : execSql engine o (saveSql info s.data.idLast) s.tables with
  | none => exact ⟨rfl, rfl⟩
  | some next =>
      refine ⟨hSpares s.tables next ?_, rfl⟩
      unfold execSql at hExec
      split_ifs at hExec with hOk
      exact hExec

/-- A start of `local_data` keeps the tables and empties the cache. -/
theorem startLocalData_secret (o : SqliteOutcome) (tables : LocalTables) :
    (startLocalData o tables).2.tables = tables ∧
      (startLocalData o tables).2.data.secretjwt = [] := by
  unfold startLocalData getMysqlConnInfo
  split
  · split
    · exact ⟨rfl, rfl⟩
    · exact ⟨rfl, rfl⟩
  · exact ⟨rfl, rfl⟩

/-- The state of a new process. -/
def renewed (w : World) : World :=
  { w with
    azsDb := { lastConnectInfo := (startLocalData (w.env.sqlite.headD {}) w.ld.tables).1 }
    ld := (startLocalData (w.env.sqlite.headD {}) w.ld.tables).2
    env.sqlite := w.env.sqlite.tail
    started := [] }

theorem startProcess_endState (pl : Platform) (w : World) :
    endState (startProcess pl) w =
      endState (connect pl (renewed w).azsDb.lastConnectInfo) (renewed w) := by
  have hNew : newProcess w = .ok (renewed w).azsDb.lastConnectInfo (renewed w) := rfl
  rw [startProcess, endState_bind_of_ok hNew, endState_discard_eq]

theorem idLast_generatejwtSecret (engine : SqliteEngine) (o : SqliteOutcome)
    (dis : Nat → Fin 36) (reginerate : Bool) (s : LocalState) :
    (Local.generatejwtSecret engine o dis reginerate s).2.data.idLast = s.data.idLast := by
  unfold Local.generatejwtSecret
  dsimp only
  split
  · split
    · split
      · split
        · rfl
        · rfl
      · rfl
    · split
      · rfl
      · rfl
  · rfl

theorem idLast_afterRegenerate (pl : Platform) (info : MysqlConnInfo) (w : World) :
    (afterRegenerate pl info w).ld.data.idLast = w.ld.data.idLast := by
  unfold afterRegenerate
  split_ifs
  · exact idLast_generatejwtSecret ..
  · rfl

/-- The lines of a connect attempt. -/
def Entry.isConnectLine : Entry → Prop
  | .select _ _ => True
  | .generate _ _ _ => True
  | _ => False

theorem lines_afterRegenerate (pl : Platform) (info : MysqlConnInfo) (w : World) :
    LogGrows Entry.isConnectLine w (afterRegenerate pl info w) := by
  unfold afterRegenerate
  split_ifs
  · exact .of_line rfl trivial
  · exact .of_eq rfl

theorem lines_connect (pl : Platform) (info : MysqlConnInfo) (w : World) :
    LogGrows Entry.isConnectLine w (endState (connect pl info) w) := by
  by_cases hDriver : DriverWorks w.env
  · obtain ⟨valid, hValid⟩ := Option.ne_none_iff_exists'.mp hDriver.2.2
    rw [endState, connect_run_of_isValid pl info hDriver.1 hDriver.2.1 hValid]
    have hSaved : LogGrows Entry.isConnectLine w (saved pl info valid w) :=
      (lines_afterRegenerate pl info (w.mapDb fun db =>
        { db with lastInputInfo := info, con := some ⟨info, true⟩, isconn := valid })).trans
          (.of_eq rfl)
    have hStation : LogGrows Entry.isConnectLine (saved pl info valid w)
        (afterStation ⟨info, true⟩ (saved pl info valid w)) := .of_line rfl trivial
    exact (hSaved.trans hStation).trans (.of_eq rfl)
  · obtain ⟨con, hRun⟩ := connect_run_of_not_driverWorks pl info hDriver
    rw [endState, hRun]
    exact .of_eq rfl

theorem lines_startProcess (pl : Platform) (w : World) :
    LogGrows Entry.isConnectLine w (endState (startProcess pl) w) := by
  rw [startProcess_endState]
  exact .trans (w := renewed w) (.of_eq rfl) (lines_connect pl _ _)

/-- The connection data that a start of the process reads. -/
def World.savedInfo (w : World) : MysqlConnInfo := (startLocalData {} w.ld.tables).1

/-- The save of a start leaves the table `jwt` alone. -/
def StartSparesJwt (pl : Platform) (w : World) : Prop :=
  SparesJwt pl.sqlite w.savedInfo (startLocalData {} w.ld.tables).2.data.idLast

theorem lastConnectInfo_renewed {w : World} (hWorks : w.env.SqliteWorks) :
    (renewed w).azsDb.lastConnectInfo = w.savedInfo := by
  show (startLocalData (w.env.sqlite.headD {}) w.ld.tables).1 = _
  rw [hWorks.head]
  rfl

theorem StartSparesJwt.renewed {pl : Platform} {w : World} (hWorks : w.env.SqliteWorks)
    (hSpares : StartSparesJwt pl w) :
    SparesJwt pl.sqlite (renewed w).azsDb.lastConnectInfo (renewed w).ld.data.idLast := by
  rw [lastConnectInfo_renewed hWorks]
  show SparesJwt pl.sqlite w.savedInfo
    (startLocalData (w.env.sqlite.headD {}) w.ld.tables).2.data.idLast
  rw [hWorks.head]
  exact hSpares

/-! ## Properties of the living sessions -/

/-- A property that the sessions of a state may have: of the key, the token, and the
connection data over which it was issued. -/
abbrev SessionProperty := World → Bytes → Bytes → Option MysqlConnInfo → Prop

/-- The living sessions have a property. -/
structure SessionsHave (p : SessionProperty) (w : World) : Prop where
  kept : SecretKept w
  live : ∀ key token inUse, LiveSession w key token inUse → p w key token inUse

/-- Inside an event: the living sessions have the property if the secrets that the event
draws turn out to be new. -/
structure InEvent (p : SessionProperty) (w : World) : Prop where
  sqlite : w.env.SqliteWorks
  sessions : (drawnSecrets w.log).Nodup → SessionsHave p w

/-- Lines other than a regeneration of the secret. -/
def Entry.isLasting : Entry → Prop
  | .generate true _ _ => False
  | _ => True

theorem Entry.IsQuiet.isLasting {e : Entry} (hQuiet : e.isQuiet) : e.isLasting := by
  cases e with
  | generate reginerate drawn returned => exact hQuiet.elim
  | _ => trivial

/-- The property survives as long as the secret is not regenerated. -/
def Lasting (p : SessionProperty) : Prop :=
  ∀ w next, next.azsDb.lastConnectInfo = w.azsDb.lastConnectInfo →
    w.env.now.ns ≤ next.env.now.ns → LogGrows Entry.isLasting w next →
      ∀ key token inUse, p w key token inUse → p next key token inUse

namespace InEvent

variable {p q : SessionProperty} {pl : Platform} {info : MysqlConnInfo} {w next : World}

/-- A step that leaves the table `jwt` and writes quiet lines. -/
theorem quiet (hIn : InEvent p w) (hSqlite : next.env.SqliteWorks)
    (hJwt : next.ld.tables.jwt = w.ld.tables.jwt)
    (hCache : next.ld.data.secretjwt = [] ∨ next.ld.data.secretjwt = w.ld.data.secretjwt)
    (hLog : LogGrows Entry.isQuiet w next)
    (hKeep : ∀ key token inUse, p w key token inUse → q next key token inUse) :
    InEvent q next where
  sqlite := hSqlite
  sessions hFresh := by
    rw [hLog.drawnSecrets_eq] at hFresh
    have hStart := hIn.sessions hFresh
    refine ⟨hStart.kept.quiet hJwt hCache hLog, fun key token inUse hLive => ?_⟩
    exact hKeep key token inUse (hStart.live key token inUse (liveSession_of_quiet hJwt hLog hLive))

/-- Another property that the same sessions have in the same state. -/
theorem imp (hIn : InEvent p w)
    (hKeep : ∀ key token inUse, p w key token inUse → q w key token inUse) : InEvent q w :=
  hIn.quiet hIn.sqlite rfl (Or.inr rfl) (.of_eq rfl) hKeep

/-- The object `azs_db` changes, but not `last_connect_info`. -/
theorem mapDb (hLasting : Lasting p) (hIn : InEvent p w) {f : AzsDatabase → AzsDatabase}
    (hLast : (f w.azsDb).lastConnectInfo = w.azsDb.lastConnectInfo) : InEvent p (w.mapDb f) :=
  hIn.quiet hIn.sqlite rfl (Or.inr rfl) (.of_eq rfl) (hLasting w _ hLast le_rfl (.of_eq rfl))

theorem framed (hLasting : Lasting p) (hIn : InEvent p w)
    (hFramed : Framed Entry.isDatabaseLine w next) : InEvent p next := by
  have hEnv : next.env.SqliteWorks := by
    rw [hFramed.env]
    exact hIn.sqlite
  have hQuiet := hFramed.log.mono fun _ => Entry.IsDatabaseLine.isQuiet
  refine hIn.quiet hEnv (by rw [hFramed.ld]) (Or.inr (by rw [hFramed.ld])) hQuiet ?_
  apply hLasting w next
  · rw [hFramed.azsDb]
  · rw [hFramed.env]
  · exact hQuiet.mono fun _ => Entry.IsQuiet.isLasting

theorem lasting_afterSecret (pl : Platform) (w : World) :
    LogGrows Entry.isLasting w (Server.afterSecret pl w) := by
  obtain ⟨more, hLog, hMore⟩ := log_afterSecret pl w
  refine ⟨more, hLog, fun e hMem => ?_⟩
  obtain ⟨drawn, returned, rfl⟩ := hMore e hMem
  trivial

theorem afterSecret (pl : Platform) (hLasting : Lasting p) (hIn : InEvent p w) :
    InEvent p (Server.afterSecret pl w) where
  sqlite := sqliteWorks_afterSecret hIn.sqlite
  sessions hFresh := by
    have hStart := hIn.sessions (nodup_of_afterSecret hFresh)
    refine ⟨hStart.kept.afterSecret hIn.sqlite, fun key token inUse hLive => ?_⟩
    refine hLasting w _ ?_ ?_ (lasting_afterSecret pl w) key token inUse
      (hStart.live key token inUse
        (liveSession_of_afterSecret hStart.kept hIn.sqlite hFresh hLive))
    · rw [azsDb_afterSecret]
    · rw [now_afterSecret]

/-- The token of a login that has the property. -/
theorem afterToken {userid : Int} {admin : Bool} (hLasting : Lasting p) (hIn : InEvent p w)
    (hNew : ∀ key, p (afterToken pl userid admin w) key
      (sessionToken pl key w.env.now userid admin) w.azsDb.inUse) :
    InEvent p (Server.afterToken pl userid admin w) where
  sqlite := sqliteWorks_afterSecret hIn.sqlite
  sessions hFresh := by
    have hDrawn : drawnSecrets (Server.afterToken pl userid admin w).log =
        drawnSecrets (Server.afterSecret pl w).log :=
      (drawnSecrets_append _ _).trans (List.append_nil _)
    rw [hDrawn] at hFresh
    have hBefore := (hIn.sessions (nodup_of_afterSecret hFresh)).kept
    have hRead := (hIn.afterSecret pl hLasting).sessions hFresh
    refine ⟨hRead.kept.signs (row_afterSecret hBefore hIn.sqlite) _ _,
      fun key token inUse hLive => ?_⟩
    rcases List.mem_append.mp hLive.signed with hOld | hSigned
    · have hLines : LogGrows Entry.isLasting (Server.afterSecret pl w)
          (Server.afterToken pl userid admin w) := .of_line rfl trivial
      refine hLasting _ _ ?_ ?_ hLines key token inUse
        (hRead.live key token inUse ⟨hLive.row, hOld⟩)
      · rfl
      · exact le_rfl
    · cases List.mem_singleton.mp hSigned
      exact hNew _

theorem afterVerify {bare : Bytes} (hLasting : Lasting p) (hIn : InEvent p w) :
    InEvent p (afterVerify pl bare w) := by
  have hRead := hIn.afterSecret pl hLasting
  exact hRead.quiet hRead.sqlite rfl (Or.inr rfl) (.of_line rfl trivial)
    (hLasting _ _ rfl le_rfl (.of_line rfl trivial))

/-- The cookie check. -/
theorem checkCoockie {req : Request} (hLasting : Lasting p) (hIn : InEvent p w) :
    InEvent p (endState (checkCoockie pl req) w) := by
  rcases checkCoockie_cases pl req w with hRun | hRun | ⟨token, bare, payload, -, hRun⟩
  · rw [endState, hRun]
    exact hIn
  · rw [endState, hRun]
    exact hIn
  · rw [endState, hRun]
    exact hIn.afterVerify hLasting

/-- A login: what holds since the password was accepted gives the token the property. -/
theorem authPost {req : Request} (since : Int → World → Prop) (hLasting : Lasting p)
    (hIn : InEvent p w)
    (hLogin : ∀ con userid, LoginAccepted pl w req.body con userid →
      since userid (afterLogin userid w))
    (hShift : ∀ userid w next, since userid w → Framed Entry.isShiftLine w next →
      since userid next)
    (hNew : ∀ userid w key, since userid w →
      p (Server.afterToken pl userid (decide (firstAdminId ≤ userid)) w) key
        (sessionToken pl key w.env.now userid (decide (firstAdminId ≤ userid))) w.azsDb.inUse) :
    InEvent p (endState (authPost pl req) w) := by
  apply endState_authPost (InEvent p) (fun userid v => InEvent p v ∧ since userid v) hIn
  · exact fun v next hIn hFramed => hIn.framed hLasting hFramed.ofShiftLines
  · intro con userid hAccepted
    have hLogged : LogGrows Entry.isQuiet w (afterLogin userid w) :=
      .trans (w := w.popSql.observed (.select (passwordSql userid) true))
        (.of_line rfl trivial) (.of_line rfl trivial)
    refine ⟨?_, hLogin con userid hAccepted⟩
    exact hIn.quiet hIn.sqlite rfl (Or.inr rfl) hLogged
      (hLasting w _ rfl le_rfl (hLogged.mono fun _ => Entry.IsQuiet.isLasting))
  · rintro userid v next ⟨hIn, hSince⟩ hFramed
    exact ⟨hIn.framed hLasting hFramed.ofShiftLines, hShift userid v next hSince hFramed⟩
  · exact fun userid v hSince => hSince.1
  · rintro userid v ⟨hIn, hSince⟩
    exact hIn.afterToken hLasting fun key => hNew userid v key hSince

/-- Regenerating the secret for other connection data ends every session. -/
theorem afterRegenerate (pl : Platform) (info : MysqlConnInfo) (hIn : InEvent p w)
    (hKeep : w.azsDb.lastConnectInfo = info →
      ∀ key token inUse, p w key token inUse → q w key token inUse) :
    InEvent q (afterRegenerate pl info w) := by
  by_cases hOther : w.azsDb.lastConnectInfo ≠ info
  · rw [Server.afterRegenerate, if_pos hOther]
    refine ⟨hIn.sqlite.tail, fun hFresh => ?_⟩
    have hBefore : (drawnSecrets w.log).Nodup := by
      have hLog := hFresh
      rw [endState, generatejwtSecret_run, drawnSecrets_generate] at hLog
      exact hLog.of_append_left
    have hKept := (hIn.sessions hBefore).kept
    refine ⟨hKept.regenerate hIn.sqlite, fun key token inUse hLive => ?_⟩
    exact absurd hLive (not_liveSession_regenerate hKept hIn.sqlite hFresh)
  · rw [Server.afterRegenerate, if_neg hOther]
    exact hIn.imp (hKeep (not_not.mp hOther))

/-- Saving connection data by a statement that leaves the table `jwt` alone. -/
theorem afterSave (hIn : InEvent p w) (hSpares : SparesJwt pl.sqlite info w.ld.data.idLast)
    (hKeep : ∀ key token inUse, p w key token inUse →
      q (afterSave pl info w) key token inUse) :
    InEvent q (Server.afterSave pl info w) := by
  obtain ⟨hJwt, hData⟩ := setMysqlConnInfo_secret hSpares (w.env.sqlite.headD {})
  exact hIn.quiet hIn.sqlite.tail hJwt (Or.inr (congrArg LocalData.secretjwt hData)) (.of_eq rfl)
    hKeep

/-- Reading the station id. -/
theorem afterStation (hLasting : Lasting p) (hIn : InEvent p w) (con : Connection) :
    InEvent p (afterStation con w) :=
  hIn.quiet hIn.sqlite rfl (Or.inr rfl) (.of_line rfl trivial)
    (hLasting w _ (lastConnectInfo_afterStation con w) le_rfl (.of_line rfl trivial))

/-- Behind the driver the living sessions are those of the new connection data, or none. -/
theorem saved {valid : Bool} (hLasting : Lasting p) (hIn : InEvent p w)
    (hSpares : SparesJwt pl.sqlite info w.ld.data.idLast) :
    InEvent p (saved pl info valid w) := by
  have hOpened := hIn.mapDb (f := fun db =>
    { db with lastInputInfo := info, con := some ⟨info, true⟩, isconn := valid }) hLasting rfl
  have hRegenerated := hOpened.afterRegenerate pl info
    (q := fun v key token inUse => p v key token inUse ∧ v.azsDb.lastConnectInfo = info)
    fun hSame key token inUse hProperty => ⟨hProperty, hSame⟩
  refine hRegenerated.afterSave ?_ ?_
  · rw [idLast_afterRegenerate]
    exact hSpares
  · rintro key token inUse ⟨hProperty, hSame⟩
    refine hLasting _ _ ?_ ?_ ?_ key token inUse hProperty
    · exact hSame.symm
    · exact le_rfl
    · exact .of_eq rfl

/-- `connect`, whatever becomes of it. -/
theorem connect (hLasting : Lasting p) (hIn : InEvent p w)
    (hSpares : SparesJwt pl.sqlite info w.ld.data.idLast) :
    InEvent p (endState (connect pl info) w) := by
  by_cases hDriver : DriverWorks w.env
  · obtain ⟨valid, hValid⟩ := Option.ne_none_iff_exists'.mp hDriver.2.2
    rw [endState, connect_run_of_isValid pl info hDriver.1 hDriver.2.1 hValid]
    exact ((hIn.saved hLasting hSpares).afterStation hLasting ⟨info, true⟩).mapDb hLasting rfl
  · obtain ⟨con, hRun⟩ := connect_run_of_not_driverWorks pl info hDriver
    rw [endState, hRun]
    exact hIn.mapDb hLasting rfl

/-- A new process, whose cache is empty. -/
theorem renewed (hIn : InEvent p w)
    (hKeep : ∀ key token inUse, LiveSession w key token inUse → p w key token inUse →
      p (renewed w) key token inUse) :
    InEvent p (Server.renewed w) := by
  obtain ⟨hTables, hCache⟩ := startLocalData_secret (w.env.sqlite.headD {}) w.ld.tables
  have hJwt : (Server.renewed w).ld.tables.jwt = w.ld.tables.jwt := congrArg LocalTables.jwt hTables
  refine ⟨hIn.sqlite.tail, fun hFresh => ?_⟩
  have hStart := hIn.sessions hFresh
  refine ⟨hStart.kept.quiet hJwt (Or.inl hCache) (.of_eq rfl), fun key token inUse hLive => ?_⟩
  have hOld : LiveSession w key token inUse := ⟨hJwt ▸ hLive.row, hLive.signed⟩
  exact hKeep key token inUse hOld (hStart.live key token inUse hOld)

/-- A start of the process. -/
theorem startProcess (hLasting : Lasting p) (hIn : InEvent p w)
    (hKeep : ∀ key token inUse, LiveSession w key token inUse → p w key token inUse →
      p (Server.renewed w) key token inUse)
    (hSpares : StartSparesJwt pl w) : InEvent p (endState (startProcess pl) w) := by
  rw [startProcess_endState]
  exact (hIn.renewed hKeep).connect hLasting (hSpares.renewed hIn.sqlite)

end InEvent

end Server
end AzsServer
