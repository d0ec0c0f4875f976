import AzsServer.Server.Routes

/-!
# What the handlers are made of

The handlers behind a session, the login page and the password check are composed
of few kinds of steps: statements under `try`, reads of `azs_id`, `isconn` and the
clock, changes of the reply, and exceptions.  `Calls` says so of a program, with the
lines that it may add to the log; each property of all these handlers is then one
induction over `Calls`.
-/

namespace AzsServer
namespace Server

open Core Library

/-- The program is composed of these steps.  `allowed` bounds the lines that it adds to
the log; `offRow` says whether it may read a result set that stands on no row. -/
inductive Calls (pl : Platform) (allowed : Entry → Prop) (offRow : Prop) :
    {α : Type} → Prog α → Prop where
  | pure {α : Type} (a : α) : Calls pl allowed offRow (Pure.pure a : Prog α)
  | bind {α β : Type} {m : Prog α} {f : α → Prog β} (hFirst : Calls pl allowed offRow m)
      (hRest : ∀ a, Calls pl allowed offRow (f a)) : Calls pl allowed offRow (m >>= f)
  | query {ρ : Type} {sql : Bytes} (rows : Mysql.Tables → List ρ)
      (hLine : ∀ executed, allowed (.select sql executed)) :
      Calls pl allowed offRow (executeQuery sql rows)
  | update {u : Mysql.Update} (hLine : ∀ executed, allowed (.update u executed)) :
      Calls pl allowed offRow (executeUpdate pl u)
  | azsId : Calls pl allowed offRow azsId
  | isConnect : Calls pl allowed offRow isConnect
  | systemNow : Calls pl allowed offRow systemNow
  | observe {e : Entry} (hLine : allowed e) : Calls pl allowed offRow (observe e)
  | modifyResponse (f : Response → Response) : Calls pl allowed offRow (modifyResponse f)
  | stdException {α : Type} : Calls pl allowed offRow (throw .stdException : Prog α)
  | undefined {α : Type} : Calls pl allowed offRow (throw .undefined : Prog α)
  | getString {α : Type} (hOffRow : offRow) :
      Calls pl allowed offRow (throw .sqlException : Prog α)
  | guarded {α : Type} {body : Prog α} (hBody : Calls pl allowed offRow body) (failed : α) :
      Calls pl allowed offRow (guarded body failed)

/-- The functions that change the settings, for an administrator. -/
def ClientCall.writesSettings : ClientCall → Bool
  | .apiTrkSave => true
  | .apiSettingsSet => true
  | .apiSettingsDelete => true
  | _ => false

/-- The lines of a program that only reads the database. -/
def Entry.isSelect : Entry → Prop
  | .select _ _ => True
  | _ => False

/-- The lines of a program that changes no settings. -/
def Entry.isShiftLine : Entry → Prop
  | .select _ _ => True
  | .update u _ => u.isSettings = false
  | _ => False

/-- The lines of a program that only talks to the database. -/
def Entry.isDatabaseLine : Entry → Prop
  | .select _ _ => True
  | .update _ _ => True
  | _ => False

/-- The lines of a password check. -/
def Entry.isCheckLine : Entry → Prop
  | .select _ _ => True
  | .login _ _ _ => True
  | _ => False

theorem Entry.isShiftLine_of_select (e : Entry) (hLine : e.isSelect) : e.isShiftLine := by
  cases e with
  | select sql executed => trivial
  | _ => exact hLine.elim

theorem Entry.IsShiftLine.isDatabaseLine {e : Entry} (hLine : e.isShiftLine) :
    e.isDatabaseLine := by
  cases e with
  | select sql executed => trivial
  | update u executed => trivial
  | _ => exact hLine.elim

namespace Calls

section Rules

variable {pl : Platform} {allowed : Entry → Prop} {offRow : Prop} {α : Type}

theorem mono {more : Entry → Prop} {m : Prog α} (hMore : ∀ e, allowed e → more e)
    (hCalls : Calls pl allowed offRow m) : Calls pl more offRow m := by
  induction hCalls with
  | pure a => exact .pure a
  | bind _ _ ihFirst ihRest => exact .bind ihFirst ihRest
  | query rows hLine => exact .query rows fun executed => hMore _ (hLine executed)
  | update hLine => exact .update fun executed => hMore _ (hLine executed)
  | azsId => exact .azsId
  | isConnect => exact .isConnect
  | systemNow => exact .systemNow
  | observe hLine => exact .observe (hMore _ hLine)
  | modifyResponse f => exact .modifyResponse f
  | stdException => exact .stdException
  | undefined => exact .undefined
  | getString hOffRow => exact .getString hOffRow
  | guarded _ failed ih => exact .guarded ih failed

theorem ite {c : Prop} [Decidable c] {m n : Prog α} (hThen : Calls pl allowed offRow m)
    (hElse : Calls pl allowed offRow n) : Calls pl allowed offRow (if c then m else n) := by
  split_ifs
  · exact hThen
  · exact hElse

theorem orThrow (value : Option α) : Calls pl allowed offRow (orThrow value) := by
  cases value with
  | none => exact .stdException
  | some a => exact .pure a

theorem orUndefined (value : Option α) : Calls pl allowed offRow (orUndefined value) := by
  cases value with
  | none => exact .undefined
  | some a => exact .pure a

theorem forM_mem {body : α → Prog PUnit} {as : List α}
    (hBody : ∀ a ∈ as, Calls pl allowed offRow (body a)) : Calls pl allowed offRow (as.forM body) := by
  induction as with
  | nil => exact .pure PUnit.unit
  | cons a as ih =>
      exact .bind (hBody a List.mem_cons_self) fun _ =>
        ih fun other hMem => hBody other (List.mem_cons_of_mem a hMem)

theorem forM {body : α → Prog PUnit} (hBody : ∀ a, Calls pl allowed offRow (body a))
    (as : List α) : Calls pl allowed offRow (as.forM body) := forM_mem fun a _ => hBody a

theorem discard {m : Prog α} (hCalls : Calls pl allowed offRow m) :
    Calls pl allowed offRow (discard m) := by
  have hMap : (Functor.discard m : Prog PUnit) = m >>= fun _ => Pure.pure PUnit.unit := rfl
  rw [hMap]
  exact .bind hCalls fun _ => .pure PUnit.unit

end Rules

/-! ## Replies -/

section Replies

variable {pl : Platform} {allowed : Entry → Prop} {offRow : Prop}

theorem replyStatus (status : String) : Calls pl allowed offRow (replyStatus status) :=
  .bind (.modifyResponse _) fun _ => .modifyResponse _

theorem writePage (page : String) (ctx : Crow.Json) :
    Calls pl allowed offRow (writePage pl page ctx) :=
  .bind (.modifyResponse _) fun _ => .modifyResponse _

theorem reloadContext (ctx : Nlohmann.Json) : Calls pl allowed offRow (reloadContext pl ctx) :=
  .bind (.orThrow _) fun _ => .orThrow _

theorem replyJson (ctx : Nlohmann.Json) : Calls pl allowed offRow (replyJson pl ctx) :=
  .bind (.orThrow _) fun _ => .bind (.modifyResponse _) fun _ => .modifyResponse _

theorem sendAway : Calls pl allowed offRow sendAway :=
  .bind (.modifyResponse _) fun _ => .bind (.modifyResponse _) fun _ => .modifyResponse _

theorem typeHeader (contentType : Option Bytes) : Calls pl allowed offRow (typeHeader contentType) := by
  cases contentType with
  | none => exact .pure _
  | some contentType => exact .modifyResponse _

theorem staticFiles (path : Bytes) : Calls pl allowed offRow (staticFiles pl path) := by
  unfold Server.staticFiles
  cases pl.staticFile (ascii "azs_site/" ++ path) with
  | none => exact .bind (.modifyResponse _) fun _ => .modifyResponse _
  | some file =>
      exact .bind (.modifyResponse _) fun _ => .bind (.modifyResponse _) fun _ =>
        .bind (typeHeader file.1) fun _ => .bind (.modifyResponse _) fun _ => .modifyResponse _

theorem returnContent (headers : List (Bytes × Bytes)) (body : Bytes) :
    Calls pl allowed offRow (returnContent headers body) :=
  .bind (.modifyResponse _) fun _ => .modifyResponse _

end Replies

/-! ## Statements that select -/

section Readers

variable {pl : Platform} {allowed : Entry → Prop} {offRow : Prop}
variable (hSelect : ∀ sql executed, allowed (.select sql executed))

include hSelect

theorem getUsersName_of_select : Calls pl allowed offRow (Server.getUsersName pl) :=
  .bind .azsId fun _ => .guarded (.query _ (hSelect _)) _

theorem smenaBoolIds_of_select (lastId lastNn : Int) :
    Calls pl allowed offRow (Server.smenaBoolIds pl lastId lastNn) :=
  .bind .azsId fun _ => .guarded (.bind (.query _ (hSelect _)) fun _ => .pure _) _

theorem smenaBoolUser_of_select (userid : Int) :
    Calls pl allowed offRow (Server.smenaBoolUser pl userid) :=
  .bind .azsId fun _ => .guarded (.bind (.query _ (hSelect _)) fun _ => .pure _) _

theorem authMain_of_select : Calls pl allowed offRow (Server.authMain pl) :=
  .bind (getUsersName_of_select hSelect) fun _ =>
    .bind (smenaBoolUser_of_select hSelect _) fun _ => .pure _

theorem getTovars_of_select : Calls pl allowed offRow Server.getTovars :=
  .guarded (.bind (.query _ (hSelect _)) fun _ => .pure _) _

theorem getTanks_of_select : Calls pl allowed offRow Server.getTanks :=
  .guarded (.bind (.query _ (hSelect _)) fun _ => .pure _) _

theorem getTrks_of_select : Calls pl allowed offRow (Server.getTrks pl) :=
  .bind .azsId fun _ => .guarded (.bind (.query _ (hSelect _)) fun _ => .orUndefined _) _

theorem getScreenSize_of_select : Calls pl allowed offRow Server.getScreenSize :=
  .guarded (.bind (.query _ (hSelect _)) fun _ => .bind (.orThrow _) fun _ => .pure _) _

theorem getTrksWithAll_of_select : Calls pl allowed offRow (Server.getTrksWithAll pl) :=
  .bind (getScreenSize_of_select hSelect) fun _ =>
    .bind (.guarded (.bind (.query _ (hSelect _)) fun _ => .pure _) _) fun _ =>
      .bind (.guarded (.bind (.query _ (hSelect _)) fun _ => .pure _) _) fun _ =>
        .bind .azsId fun _ =>
          .bind (.guarded (.bind (.query _ (hSelect _)) fun _ => .orUndefined _) _) fun _ => .pure _

theorem mainPage_of_select (admin : List (Bytes × Nlohmann.Json)) :
    Calls pl allowed offRow (Server.mainPage pl admin) :=
  .bind (.modifyResponse _) fun _ => .bind (getTrksWithAll_of_select hSelect) fun _ =>
    .bind (.orUndefined _) fun _ => .bind (.reloadContext _) fun _ => .writePage _ _

theorem oldMainSettingsConfig_of_select :
    Calls pl allowed offRow (Admin.oldMainSettingsConfig pl) := by
  refine .bind (getTrksWithAll_of_select hSelect) fun all => ?_
  have hRest : Calls pl allowed offRow (do
      let pumps ← Server.orUndefined (all.trks.mapM configPump)
      let tanks ← Server.orUndefined (all.tanks.mapM configTank)
      htmlHeader
      let ctx ← Server.reloadContext pl
        (.object [jsonKey "pumps" (.array pumps), jsonKey "tanks" (.array tanks)])
      Server.writePage pl "public/old/configuration.html" ctx) :=
    .bind (.orUndefined _) fun _ => .bind (.orUndefined _) fun _ =>
      .bind (.modifyResponse _) fun _ => .bind (.reloadContext _) fun _ => .writePage _ _
  -- without pumps `trks[0]` is accessed, whatever follows
  exact .ite (.bind .undefined fun _ => hRest) hRest

end Readers

/-! ## Shifts -/

section Shifts

variable {pl : Platform}

theorem smenaBoolIds (lastId lastNn : Int) :
    Calls pl Entry.isShiftLine False (smenaBoolIds pl lastId lastNn) :=
  smenaBoolIds_of_select (fun _ _ => trivial) lastId lastNn

theorem smenaChangeOperator (idOperator idSmena : Int) :
    Calls pl Entry.isShiftLine False (smenaChangeOperator pl idOperator idSmena) :=
  .guarded (.update fun _ => rfl) _

theorem smenaAddOperator (idOperator nn : Int) :
    Calls pl Entry.isShiftLine False (smenaAddOperator pl idOperator nn) :=
  .guarded (.bind .systemNow fun _ => .bind .azsId fun _ => .update fun _ => rfl) _

theorem smenaClose : Calls pl Entry.isShiftLine False (smenaClose pl) := by
  refine .guarded (.bind (.smenaBoolIds _ _) fun ids => ?_) _
  obtain ⟨status, lastId, nn⟩ := ids
  exact .bind .systemNow fun _ => .update fun _ => rfl

theorem authCheck (userid : Int) (password : Bytes) (admin : Bool) :
    Calls pl Entry.isCheckLine True (authCheck userid password admin) := by
  refine .guarded (.bind (.query _ fun _ => trivial) fun res => ?_) _
  cases res with
  | nil => exact .getString trivial
  | cons row rest =>
      exact .ite (.bind .systemNow fun _ => .bind (.observe trivial) fun _ => .pure _) (.pure _)

theorem takeShift (userid : Int) : Calls pl Entry.isShiftLine False (takeShift pl userid) :=
  .bind (.smenaBoolIds _ _) fun _ => .ite (.smenaChangeOperator _ _) (.smenaAddOperator _ _)

theorem endShift : Calls pl Entry.isShiftLine False (endShift pl) :=
  .bind .smenaClose fun _ => .sendAway

theorem authMain : Calls pl Entry.isShiftLine False (authMain pl) :=
  authMain_of_select fun _ _ => trivial

end Shifts

/-! ## Settings -/

section Writers

variable {pl : Platform} {allowed : Entry → Prop} {offRow : Prop}
variable (hWrite : ∀ (u : Mysql.Update) executed, u.isSettings = true → u.insertsNozzle = false →
  allowed (.update u executed))
variable (hInsert : ∀ idTrk idPist idTank executed,
  allowed (.update (.insertTrk idTrk idPist idTank) executed))

include hWrite

theorem saveTrks_of_write (trks : List Trk) (screenWidth screenHeight : Int) :
    Calls pl allowed offRow (Server.saveTrks pl trks screenWidth screenHeight) :=
  .bind (.guarded (.update fun _ => hWrite _ _ rfl rfl) _) fun _ =>
    .forM (fun _ => .guarded (.update fun _ => hWrite _ _ rfl rfl) _) trks

theorem executeSql_of_write {u : Mysql.Update} (hSettings : u.isSettings = true)
    (hNoInsert : u.insertsNozzle = false) : Calls pl allowed offRow (Server.executeSql pl u) :=
  .guarded (.bind (.update fun _ => hWrite _ _ hSettings hNoInsert) fun _ => .pure _) _

theorem setTovar_of_write (tovar : Tovar) : Calls pl allowed offRow (Server.setTovar pl tovar) :=
  .guarded (.update fun _ => hWrite _ _ rfl rfl) _

theorem setTank_of_write (tank : Tank) : Calls pl allowed offRow (Server.setTank pl tank) :=
  .guarded (.update fun _ => hWrite _ _ rfl rfl) _

theorem deleteTovar_of_write (tovar : Tovar) :
    Calls pl allowed offRow (Server.deleteTovar pl tovar) :=
  .discard (executeSql_of_write hWrite rfl rfl)

theorem deleteTank_of_write (tank : Tank) : Calls pl allowed offRow (Server.deleteTank pl tank) :=
  .discard (executeSql_of_write hWrite rfl rfl)

theorem deleteTrk_of_write (trk : Trk) (smartDelete : Bool) :
    Calls pl allowed offRow (Server.deleteTrk pl trk smartDelete) :=
  .ite (.bind (.discard (executeSql_of_write hWrite rfl rfl)) fun _ =>
      .discard (executeSql_of_write hWrite rfl rfl))
    (.ite (.discard (executeSql_of_write hWrite rfl rfl))
      (.forM (fun _ => .discard (executeSql_of_write hWrite rfl rfl)) _))

theorem apiTrkSave_of_write (req : Request) :
    Calls pl allowed offRow (Admin.apiTrkSave pl req) := by
  refine .bind (.modifyResponse _) fun _ => .bind (.orThrow _) fun json =>
    .bind (.orThrow _) fun form => ?_
  obtain ⟨width, height, trks⟩ := form
  exact .bind (saveTrks_of_write hWrite _ _ _) fun _ => .bind .isConnect fun _ =>
    .ite (.replyStatus _) (.replyStatus _)

theorem apiSettingsDelete_of_write (req : Request) :
    Calls pl allowed offRow (Admin.apiSettingsDelete pl req) := by
  refine .bind (.modifyResponse _) fun _ => .bind (.orThrow _) fun json => ?_
  cases deleteForm json with
  | none => exact .replyStatus _
  | some form =>
      obtain ⟨tovars, tanks, trks⟩ := form
      exact .bind (.forM (deleteTovar_of_write hWrite) _) fun _ =>
        .bind (.forM (deleteTank_of_write hWrite) _) fun _ =>
          .bind (.forM (fun trk => deleteTrk_of_write hWrite trk true) _) fun _ => .replyStatus _

include hInsert

theorem setPists_of_write (idTrk maxIdPist n : Int) (pists : List Pist) :
    Calls pl allowed offRow (Server.setPists pl idTrk maxIdPist n pists) := by
  induction pists generalizing n with
  | nil => exact .pure PUnit.unit
  | cons pist rest ih =>
      unfold Server.setPists
      exact .ite (.bind (.update fun _ => hInsert _ _ _ _) fun _ => ih _)
        (.bind (.update fun _ => hWrite _ _ rfl rfl) fun _ => ih _)

theorem setTrk_of_write (hSelect : ∀ sql executed, allowed (.select sql executed)) (trk : Trk) :
    Calls pl allowed offRow (Server.setTrk pl trk) :=
  .guarded (.bind (.update fun _ => hWrite _ _ rfl rfl) fun _ =>
    .bind (.query _ (hSelect _)) fun _ => setPists_of_write hWrite hInsert _ _ _ _) _

theorem apiSettingsSet_of_write (hSelect : ∀ sql executed, allowed (.select sql executed))
    (req : Request) : Calls pl allowed offRow (Admin.apiSettingsSet pl req) :=
  .bind (.modifyResponse _) fun _ => .bind (.orThrow _) fun _ => .bind (.orThrow _) fun _ =>
    .ite (.replyStatus _) <| .bind (.orThrow _) fun _ =>
      .ite (.replyStatus _) <| .bind (.orThrow _) fun _ =>
        .ite (.replyStatus _) <| .bind (.forM (setTovar_of_write hWrite) _) fun _ =>
          .bind (.forM (setTank_of_write hWrite) _) fun _ =>
            .bind (.forM (setTrk_of_write hWrite hInsert hSelect) _) fun _ => .replyStatus _

end Writers

section Settings

variable {pl : Platform}

theorem ofShiftLines {α : Type} {m : Prog α} {offRow : Prop}
    (hCalls : Calls pl Entry.isShiftLine offRow m) : Calls pl Entry.isDatabaseLine offRow m :=
  hCalls.mono fun _ => Entry.IsShiftLine.isDatabaseLine

theorem setTovar (tovar : Tovar) : Calls pl Entry.isDatabaseLine False (setTovar pl tovar) :=
  setTovar_of_write (fun _ _ _ _ => trivial) tovar

theorem setTrk (trk : Trk) : Calls pl Entry.isDatabaseLine False (setTrk pl trk) :=
  setTrk_of_write (fun _ _ _ _ => trivial) (fun _ _ _ _ => trivial) (fun _ _ => trivial) trk

theorem setTank (tank : Tank) : Calls pl Entry.isDatabaseLine False (setTank pl tank) :=
  setTank_of_write (fun _ _ _ _ => trivial) tank

theorem apiSettingsSet (req : Request) :
    Calls pl Entry.isDatabaseLine False (Admin.apiSettingsSet pl req) :=
  apiSettingsSet_of_write (fun _ _ _ _ => trivial) (fun _ _ _ _ => trivial) (fun _ _ => trivial) req

end Settings

/-! ## The pages behind a session -/

section Clients

variable {pl : Platform}

/-- A function of an administrator that neither ends a shift nor changes the settings selects. -/
theorem adminCall_of_select {allowed : Entry → Prop}
    (hSelect : ∀ sql executed, allowed (.select sql executed)) (req : Request) {func : ClientCall}
    (hFunc : func ≠ .apiOutshift) (hWrites : func.writesSettings = false) :
    Calls pl allowed False (Admin.call pl req func) := by
  cases func with
  | mainTrk => exact mainPage_of_select hSelect _
  | mainSettings => exact .bind (.modifyResponse _) fun _ => .writePage _ _
  | mainSettingsConfig => exact .bind (.modifyResponse _) fun _ => .writePage _ _
  | oldMainSettingsConfig => exact oldMainSettingsConfig_of_select hSelect
  | apiTrkSave => cases hWrites
  | apiOut => exact .sendAway
  | apiOutshift => exact absurd rfl hFunc
  | apiSettingsGet =>
      exact .bind (.modifyResponse _) fun _ => .bind (getTrksWithAll_of_select hSelect) fun _ =>
        .replyJson _
  | apiSettingsSet => cases hWrites
  | apiSettingsDelete => cases hWrites
  | apiSettingsTanksGet =>
      exact .bind (.modifyResponse _) fun _ => .bind (getTanks_of_select hSelect) fun _ =>
        .replyJson _
  | apiSettingsTovarsGet =>
      exact .bind (.modifyResponse _) fun _ => .bind (getTovars_of_select hSelect) fun _ =>
        .replyJson _
  | apiSettingsTrksGet =>
      exact .bind (.modifyResponse _) fun _ => .bind (getTrks_of_select hSelect) fun _ =>
        .replyJson _
  | apiSettingsKasaGet => exact .bind (.modifyResponse _) fun _ => .modifyResponse _

/-- Apart from the end of a shift and `api_settings_set`, a function of an administrator selects
or writes rows that are there. -/
theorem adminCall_of_write {allowed : Entry → Prop}
    (hWrite : ∀ (u : Mysql.Update) executed, u.isSettings = true → u.insertsNozzle = false →
      allowed (.update u executed))
    (hSelect : ∀ sql executed, allowed (.select sql executed)) (req : Request) {func : ClientCall}
    (hFunc : func ≠ .apiOutshift) (hSet : func ≠ .apiSettingsSet) :
    Calls pl allowed False (Admin.call pl req func) := by
  cases hWrites : func.writesSettings with
  | false => exact adminCall_of_select hSelect req hFunc hWrites
  | true =>
      cases func with
      | apiTrkSave => exact apiTrkSave_of_write hWrite req
      | apiSettingsSet => exact absurd rfl hSet
      | apiSettingsDelete => exact apiSettingsDelete_of_write hWrite req
      | _ => cases hWrites

/-- Every function of an administrator only talks to the database. -/
theorem adminCall (req : Request) (func : ClientCall) :
    Calls pl Entry.isDatabaseLine False (Admin.call pl req func) := by
  by_cases hFunc : func = .apiOutshift
  · subst hFunc
    exact .ofShiftLines .endShift
  by_cases hSet : func = .apiSettingsSet
  · subst hSet
    exact .apiSettingsSet req
  · exact adminCall_of_write (fun _ _ _ _ => trivial) (fun _ _ => trivial) req hFunc hSet

/-- Apart from the end of a shift, a function of a user selects. -/
theorem userCall_of_select {allowed : Entry → Prop}
    (hSelect : ∀ sql executed, allowed (.select sql executed)) {func : ClientCall}
    (hFunc : func ≠ .apiOutshift) : Calls pl allowed False (User.call pl func) := by
  cases func with
  | mainTrk => exact mainPage_of_select hSelect _
  | mainSettings => exact .bind (.modifyResponse _) fun _ => .writePage _ _
  | apiTrkSave => exact .bind (.modifyResponse _) fun _ => .modifyResponse _
  | apiOutshift => exact absurd rfl hFunc
  | _ => exact .sendAway

/-- No function of a user changes the settings. -/
theorem userCall (func : ClientCall) : Calls pl Entry.isShiftLine False (User.call pl func) := by
  by_cases hFunc : func = .apiOutshift
  · subst hFunc
    exact .endShift
  · exact userCall_of_select (fun _ _ => trivial) hFunc

theorem adminController (req : Request) :
    Calls pl Entry.isDatabaseLine False (Admin.controller pl req) := by
  unfold Admin.controller
  cases findFunc req.url with
  | none => exact .pure PUnit.unit
  | some func => exact .adminCall req func

theorem userController (req : Request) :
    Calls pl Entry.isShiftLine False (User.controller pl req) := by
  unfold User.controller
  cases findFunc req.url with
  | none => exact .pure PUnit.unit
  | some func => exact .userCall func

end Clients

end Calls

/-! ## What such a program leaves alone -/

/-- Between the two states only `isconn` may have been cleared, and only statements
have run: the tables, the results that MySQL still has to deliver, the reply and the
log differ, the log by lines that are admitted. -/
structure Framed (allowed : Entry → Prop) (start w : World) : Prop where
  azsDb : w.azsDb = { start.azsDb with isconn := w.azsDb.isconn }
  isconn : w.azsDb.isconn = true → start.azsDb.isconn = true
  ld : w.ld = start.ld
  env : w.env = { start.env with sql := w.env.sql }
  started : w.started = start.started
  log : LogGrows allowed start w

section Frame

variable {pl : Platform} {allowed : Entry → Prop} {offRow : Prop} {start w : World}

theorem Framed.refl (allowed : Entry → Prop) (w : World) : Framed allowed w w :=
  ⟨rfl, fun hIsconn => hIsconn, rfl, rfl, rfl, .of_eq rfl⟩

theorem Framed.popSql (hFramed : Framed allowed start w) : Framed allowed start w.popSql := by
  refine ⟨hFramed.azsDb, hFramed.isconn, hFramed.ld, ?_, hFramed.started, hFramed.log⟩
  show ({ w.env with sql := w.env.sql.tail } : Env) = { start.env with sql := w.env.sql.tail }
  rw [hFramed.env]

theorem Framed.observed {e : Entry} (hFramed : Framed allowed start w) (hLine : allowed e) :
    Framed allowed start (w.observed e) :=
  ⟨hFramed.azsDb, hFramed.isconn, hFramed.ld, hFramed.env, hFramed.started,
    hFramed.log.trans (.of_line rfl hLine)⟩

/-- A wider bound on the lines. -/
theorem Framed.mono {more : Entry → Prop} (hFramed : Framed allowed start w)
    (hMore : ∀ e, allowed e → more e) : Framed more start w :=
  ⟨hFramed.azsDb, hFramed.isconn, hFramed.ld, hFramed.env, hFramed.started,
    hFramed.log.mono hMore⟩

theorem Framed.ofShiftLines (hFramed : Framed Entry.isShiftLine start w) :
    Framed Entry.isDatabaseLine start w :=
  hFramed.mono fun _ => Entry.IsShiftLine.isDatabaseLine

theorem Framed.con_eq (hFramed : Framed allowed start w) : w.azsDb.con = start.azsDb.con := by
  rw [hFramed.azsDb]

/-- A call through the null pointer needs a null pointer and a statement to send. -/
def NullIfCalls (allowed : Entry → Prop) (start : World) (e : Throw) : Prop :=
  e = .nullCall → start.azsDb.con = none ∧ ∃ line, allowed line

/-- The rule for programs of this kind by what their steps do to the state: an invariant
that survives each kind of step is kept. -/
theorem Calls.keeps_of_steps {α : Type} {m : Prog α} {inv : World → Prop}
    {throws : Throw → Prop} (hCalls : Calls pl allowed offRow m)
    (hPop : ∀ w, inv w → inv w.popSql)
    (hObserved : ∀ w e, inv w → allowed e → inv (w.observed e))
    (hUpdate : ∀ w place u tables, inv w → allowed (.update u true) →
      u.run pl.mysql (w.mysql place) = some tables →
        inv { w.observed (.update u true) with
          mysql := Function.update w.mysql place tables })
    (hCleared : ∀ w, inv w → inv (w.mapDb fun db => { db with isconn := false }))
    (hResponse : ∀ w f, inv w → inv (w.mapResponse f))
    (hNull : ∀ w line, inv w → w.azsDb.con = none → allowed line → throws .nullCall)
    (hThrows : ∀ e, e ≠ .nullCall → throws e) : Keeps inv throws m := by
  have hConnection : ∀ line, allowed line → Keeps inv throws connection := by
    intro line hLine w hInv
    cases hCon : w.azsDb.con with
    | none =>
        rw [connection_run_of_none hCon]
        exact ⟨hInv, hNull w line hInv hCon hLine⟩
    | some con =>
        rw [connection_run_of_some hCon]
        exact hInv
  -- on the steps: a statement takes the next result, then it runs or it throws
  have hNextSql : Keeps inv throws nextSql := fun w hInv => hPop w hInv
  induction hCalls with
  | pure a => exact .pure a
  | bind _ _ ihFirst ihRest => exact .bind ihFirst ihRest
  | query rows hLine =>
      refine .bind (hConnection _ (hLine true)) fun con => .bind hNextSql fun sent => .bind
        (.modify fun w hInv => hObserved w _ hInv (hLine _)) fun _ => .ite ?_ ?_
      · exact .bind .get fun w => .pure _
      · exact .throw (hThrows _ (by simp))
  | @update u hLine =>
      refine .bind (hConnection _ (hLine true)) fun con => .bind hNextSql fun sent => ?_
      intro w hInv
      rw [get_bind_run]
      cases hRun : (if (sent && con.schema) = true then
          u.run pl.mysql (w.mysql (address con.info)) else none) with
      | some tables =>
          -- the statement has run over the database of the connection
          obtain ⟨-, hTables⟩ := Option.ite_none_right_eq_some.mp hRun
          exact hUpdate w _ u tables hInv (hLine true) hTables
      | none => exact ⟨hObserved w _ hInv (hLine false), hThrows _ (by simp)⟩
  | azsId => exact .bind .get fun w => .pure _
  | isConnect => exact .bind .get fun w => .pure _
  | systemNow => exact .bind .get fun w => .pure _
  | observe hLine => exact .modify fun w hInv => hObserved w _ hInv hLine
  | modifyResponse f => exact .modify fun w hInv => hResponse w f hInv
  | stdException => exact .throw (hThrows _ (by simp))
  | undefined => exact .throw (hThrows _ (by simp))
  | getString hOffRow => exact .throw (hThrows _ (by simp))
  | guarded _ failed ih =>
      exact keeps_catchSql ih (.bind (.modify fun w hInv => hCleared w hInv) fun _ => .pure failed)

/-- The frame rule: such a program leaves the rest alone, and it calls a method through
the null pointer only if the pointer was null. -/
theorem Calls.framed {α : Type} {m : Prog α} (hCalls : Calls pl allowed offRow m) :
    Keeps (Framed allowed start) (NullIfCalls allowed start) m := by
  apply hCalls.keeps_of_steps
  · exact fun w hInv => hInv.popSql
  · exact fun w e hInv hLine => hInv.observed hLine
  · intro w place u tables hInv hLine _
    have hObserved := hInv.observed hLine
    exact ⟨hObserved.azsDb, hObserved.isconn, hObserved.ld, hObserved.env, hObserved.started,
      hObserved.log⟩
  · intro w hInv
    refine ⟨?_, fun hTrue => (by cases hTrue), hInv.ld, hInv.env, hInv.started, hInv.log⟩
    show ({ w.azsDb with isconn := false } : AzsDatabase) = _
    rw [hInv.azsDb]
    rfl
  · exact fun w f hInv =>
      ⟨hInv.azsDb, hInv.isconn, hInv.ld, hInv.env, hInv.started, hInv.log⟩
  · intro w line hInv hCon hLine _
    exact ⟨hInv.con_eq ▸ hCon, line, hLine⟩
  · exact fun e hNe hNull => absurd hNull hNe

/-- An invariant that survives every frame is kept by the programs of this kind. -/
theorem Calls.keeps {α : Type} {m : Prog α} {inv : World → Prop} {throws : Throw → Prop}
    (hCalls : Calls pl allowed offRow m)
    (hInv : ∀ w next, inv w → Framed allowed w next → inv next)
    (hThrows : ∀ w e, inv w → NullIfCalls allowed w e → throws e) :
    Keeps inv throws m := by
  intro w hStart
  -- the whole program is one frame from its start
  have hFramed : Keeps (Framed allowed w) (NullIfCalls allowed w) m := hCalls.framed
  have hEnd := hFramed w (.refl allowed w)
  cases hRun : m w with
  | ok a next =>
      rw [hRun] at hEnd
      exact hInv w next hStart hEnd
  | error e next =>
      rw [hRun] at hEnd
      exact ⟨hInv w next hStart hEnd.1, hThrows w e hStart hEnd.2⟩

end Frame

/-! ## Tokens and cookies -/

section Tokens

variable {pl : Platform} {inv : World → Prop} {throws : Throw → Prop}

theorem keeps_getSecretJwt (hSecret : ∀ w, inv w → inv (afterSecret pl w)) :
    Keeps inv throws (getSecretJwt pl) := by
  intro w hInv
  rw [getSecretJwt_run]
  exact hSecret w hInv

theorem keeps_issueToken (hSecret : ∀ w, inv w → inv (afterSecret pl w))
    (hSigned : ∀ w key token inUse, inv w → inv (w.observed (.signed key token inUse)))
    (hResponse : ∀ w f, inv w → inv (w.mapResponse f)) (userid : Int) (admin : Bool) :
    Keeps inv throws (issueToken pl userid admin) :=
  .bind (.bind .get fun _ => .bind (keeps_getSecretJwt hSecret) fun _ =>
    .bind (.modify fun w hInv => hSigned w _ _ _ hInv) fun _ => .pure _) fun _ =>
      .modify fun w hInv => hResponse w _ hInv

/-- The rule for `auth_post` by its pieces. -/
theorem keeps_authPost
    (hReply : ∀ {α : Type} {m : Prog α}, Calls pl (fun _ => False) False m → Keeps inv throws m)
    (hCheck : ∀ userid password, Keeps inv throws (authCheck userid password false))
    (hTake : ∀ userid, Keeps inv throws (takeShift pl userid))
    (hIssue : ∀ userid admin, Keeps inv throws (issueToken pl userid admin)) (req : Request) :
    Keeps inv throws (authPost pl req) := by
  refine .bind (hReply (.orThrow _)) fun form => ?_
  obtain ⟨userid, password⟩ := form
  refine .bind (hCheck userid password) fun result => ?_
  obtain ⟨auth, admin⟩ := result
  exact .ite (.bind (hTake userid) fun _ => .bind (hIssue userid admin) fun _ =>
    hReply (.replyStatus _)) (hReply (.replyStatus _))

end Tokens

end Server
end AzsServer
