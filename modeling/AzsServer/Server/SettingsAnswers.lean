import AzsServer.Server.Clients
import AzsServer.Server.Storing

/-!
# The answers of the handlers that store settings

`api_settings_set` and `api_settings_delete` answer "success" behind their last statement
without a look at `isconn`, so the answer is right only as long as every statement is
executed.  `api_trk_save` asks `isConnect` first.
-/

namespace AzsServer
namespace Server

open Core Library Nlohmann

/-! ## What a body asks for -/

/-- Products, tanks and pumps in the body of a request. -/
structure SettingsForm where
  tovars : List Tovar
  tanks : List Tank
  trks : List Trk
deriving DecidableEq

/-- The arrays of a JSON value as `api_settings_set` reads them. -/
def postedForm (json : Json) : Option SettingsForm := do
  let tovars ← arrayElements json "tovars"
  let tanks ← arrayElements json "tanks"
  let trks ← arrayElements json "trks"
  return ⟨tovars.map jsonToTovar, tanks.map jsonToTank, trks.map jsonToTrk⟩

/-- An element could not be read. -/
def SettingsForm.unread (form : SettingsForm) : Prop :=
  form.tovars.any (·.idTovar = -1) = true ∨ form.tanks.any (·.idTank = -1) = true ∨
    form.trks.any (·.idTrk = -1) = true

instance (form : SettingsForm) : Decidable form.unread := inferInstanceAs (Decidable (_ ∨ _))

/-- What `api_settings_set` stores of its JSON value; `none` if it does not come so far. -/
def setForm (json : Json) : Option SettingsForm :=
  (postedForm json).bind fun form => if form.unread then none else some form

theorem setForm_eq_some_iff {json : Json} {form : SettingsForm} :
    setForm json = some form ↔ postedForm json = some form ∧ ¬ form.unread := by
  unfold setForm
  rw [Option.bind_eq_some_iff]
  constructor
  · rintro ⟨posted, hPosted, hRead⟩
    by_cases hUnread : posted.unread
    · rw [if_pos hUnread] at hRead
      cases hRead
    · rw [if_neg hUnread] at hRead
      obtain rfl := Option.some.inj hRead
      exact ⟨hPosted, hUnread⟩
  · rintro ⟨hPosted, hRead⟩
    exact ⟨form, hPosted, if_neg hRead⟩

/-- What `api_settings_delete` deletes. -/
def eraseForm (json : Json) : Option SettingsForm :=
  (deleteForm json).map fun lists => ⟨lists.1, lists.2.1, lists.2.2⟩

namespace SettingsForm

/-- The loops of `api_settings_set`. -/
def store (pl : Platform) (form : SettingsForm) : Prog Unit := do
  form.tovars.forM (setTovar pl)
  form.tanks.forM (setTank pl)
  form.trks.forM (setTrk pl)

/-- The loops of `api_settings_delete`. -/
def erase (pl : Platform) (form : SettingsForm) : Prog Unit := do
  form.tovars.forM (deleteTovar pl)
  form.tanks.forM (deleteTank pl)
  form.trks.forM fun trk => deleteTrk pl trk true

/-- The products on the tables; `none` if MySQL rejects the statement of one of them. -/
def storeTovars (engine : Mysql.Engine) (form : SettingsForm) (t : Mysql.Tables) :
    Option Mysql.Tables :=
  form.tovars.foldlM (fun t tovar => storeTovar engine tovar t) t

/-- The tanks and pumps on the tables. -/
def storeRest (form : SettingsForm) (t : Mysql.Tables) : Mysql.Tables :=
  form.trks.foldl (fun t trk => storeTrk trk t)
    (form.tanks.foldl (fun t tank => storeTank tank t) t)

/-- The effect of `store`. -/
def stored (engine : Mysql.Engine) (form : SettingsForm) (t : Mysql.Tables) :
    Option Mysql.Tables :=
  (form.storeTovars engine t).map form.storeRest

/-- The effect of `erase`. -/
def erased (form : SettingsForm) (t : Mysql.Tables) : Mysql.Tables :=
  form.trks.foldl (fun t trk => eraseTrk trk t)
    (form.tanks.foldl (fun t tank => eraseTank tank t)
      (form.tovars.foldl (fun t tovar => eraseTovar tovar t) t))

/-- The number of statements of `store`. -/
def setCount (form : SettingsForm) : Nat :=
  (form.tovars.map fun _ => 1).sum + ((form.tanks.map fun _ => 1).sum +
    (form.trks.map fun trk => 1 + (1 + trk.pists.length)).sum)

/-- The number of statements of `erase`. -/
def eraseCount (form : SettingsForm) : Nat :=
  (form.tovars.map fun _ => 1).sum + ((form.tanks.map fun _ => 1).sum +
    (form.trks.map Trk.eraseCount).sum)

variable (pl : Platform) (con : Connection) (form : SettingsForm)

theorem sends_store : Sends con form.setCount (form.stored pl.mysql) (form.store pl) := by
  have hTovars := Sends.forM (sends_setTovar pl con) form.tovars
  have hTanks := Sends.forM_some (sends_setTank pl con) form.tanks
  have hTrks := Sends.forM_some (sends_setTrk pl con) form.trks
  refine (hTovars.bind (hTanks.bind hTrks)).congr fun t => ?_
  show (form.storeTovars pl.mysql t).bind (fun t => some (form.storeRest t)) = _
  cases hStored : form.storeTovars pl.mysql t with
  | none => rw [SettingsForm.stored, hStored]; rfl
  | some u => rw [SettingsForm.stored, hStored]; rfl

theorem sends_erase :
    Sends con form.eraseCount (fun t => some (form.erased t)) (form.erase pl) := by
  have hTovars := Sends.forM_some (sends_deleteTovar pl con) form.tovars
  have hTanks := Sends.forM_some (sends_deleteTank pl con) form.tanks
  have hTrks := Sends.forM_some (sends_deleteTrk pl con) form.trks
  exact (hTovars.bind (hTanks.bind hTrks)).congr fun _ => rfl

end SettingsForm

/-! ## The handlers -/

/-- The request ends before any statement: with an exception or with the answer "error". -/
structure Rejected (w : World) (result : EStateM.Result Throw World Unit) : Prop where
  ends : ∃ next, (result = .error .stdException next ∨
    result = .ok ⟨⟩ next ∧ next.response.body = statusText "error") ∧ next.azsDb = w.azsDb ∧
      next.mysql = w.mysql ∧ next.log = w.log

section Handlers

variable {pl : Platform} {req : Request} {json : Json} {form : SettingsForm} {w : World}

/-- The state behind `set_header`. -/
def World.jsonReply (w : World) : World :=
  w.mapResponse fun r =>
    { r with
      headers := r.headers.filter (fun h => h.1 ≠ ascii "Content-Type") ++
        [(ascii "Content-Type", ascii "application/json")] }

theorem jsonHeader_run (w : World) : jsonHeader w = .ok ⟨⟩ w.jsonReply := rfl

/-- The state behind the answer with a status. -/
def World.answered (w : World) (status : String) : World :=
  w.mapResponse fun r => { r with body := statusText status, completed := true }

theorem replyStatus_run (status : String) (w : World) :
    replyStatus status w = .ok ⟨⟩ (w.answered status) := rfl

theorem orThrow_none_run {α : Type} (w : World) :
    (orThrow (none : Option α)) w = .error .stdException w := rfl

theorem orThrow_some_run {α : Type} (a : α) (w : World) : orThrow (some a) w = .ok a w := rfl

theorem rejected_error (w : World) : Rejected w (replyStatus "error" w.jsonReply) :=
  ⟨_, Or.inr ⟨replyStatus_run _ _, rfl⟩, rfl, rfl, rfl⟩

theorem rejected_throw (w : World) : Rejected w (.error .stdException w.jsonReply) :=
  ⟨_, Or.inl rfl, rfl, rfl, rfl⟩

/-- A body that is no JSON. -/
theorem apiSettingsSet_of_parse_none (hParse : pl.parse req.body = none) :
    Rejected w (Admin.apiSettingsSet pl req w) := by
  unfold Admin.apiSettingsSet
  rw [bind_of_ok (jsonHeader_run w), hParse, bind_of_error (orThrow_none_run _)]
  exact rejected_throw w

theorem apiSettingsDelete_of_parse_none (hParse : pl.parse req.body = none) :
    Rejected w (Admin.apiSettingsDelete pl req w) := by
  unfold Admin.apiSettingsDelete
  rw [bind_of_ok (jsonHeader_run w), hParse, bind_of_error (orThrow_none_run _)]
  exact rejected_throw w

/-- A value that is no object is an exception, an element that cannot be read is the answer
"error". -/
theorem apiSettingsSet_run_of_form_none (hParse : pl.parse req.body = some json)
    (hForm : setForm json = none) :
    Admin.apiSettingsSet pl req w = replyStatus "error" w.jsonReply ∨
      Admin.apiSettingsSet pl req w = .error .stdException w.jsonReply ∧
        ∃ key, arrayElements json key = none := by
  unfold Admin.apiSettingsSet
  rw [bind_of_ok (jsonHeader_run w), hParse, bind_of_ok (orThrow_some_run json _)]
  cases hTovars : arrayElements json "tovars" with
  | none =>
      rw [bind_of_error (orThrow_none_run _)]
      exact Or.inr ⟨rfl, _, hTovars⟩
  | some tovars =>
      rw [bind_of_ok (orThrow_some_run tovars _), ite_run]
      split_ifs with hTovar
      · exact Or.inl rfl
      cases hTanks : arrayElements json "tanks" with
      | none =>
          rw [bind_of_error (orThrow_none_run _)]
          exact Or.inr ⟨rfl, _, hTanks⟩
      | some tanks =>
          rw [bind_of_ok (orThrow_some_run tanks _), ite_run]
          split_ifs with hTank
          · exact Or.inl rfl
          cases hTrks : arrayElements json "trks" with
          | none =>
              rw [bind_of_error (orThrow_none_run _)]
              exact Or.inr ⟨rfl, _, hTrks⟩
          | some trks =>
              rw [bind_of_ok (orThrow_some_run trks _), ite_run]
              split_ifs with hTrk
              · exact Or.inl rfl
              · -- nothing is left to reject
                have hPosted : postedForm json =
                    some ⟨tovars.map jsonToTovar, tanks.map jsonToTank, trks.map jsonToTrk⟩ := by
                  simp [postedForm, hTovars, hTanks, hTrks]
                have hRead := setForm_eq_some_iff.mpr ⟨hPosted, fun hUnread => ?_⟩
                · rw [hForm] at hRead
                  cases hRead
                · rcases hUnread with hSome | hSome | hSome
                  · exact hTovar hSome
                  · exact hTank hSome
                  · exact hTrk hSome

theorem apiSettingsSet_of_form_none (hParse : pl.parse req.body = some json)
    (hForm : setForm json = none) : Rejected w (Admin.apiSettingsSet pl req w) := by
  rcases apiSettingsSet_run_of_form_none (w := w) hParse hForm with hAnswer | ⟨hThrow, -⟩
  · rw [hAnswer]
    exact rejected_error w
  · rw [hThrow]
    exact rejected_throw w

theorem apiSettingsSet_of_form (hParse : pl.parse req.body = some json)
    (hForm : setForm json = some form) :
    Admin.apiSettingsSet pl req w = (form.store pl >>= fun _ => replyStatus "success") w.jsonReply := by
  obtain ⟨hPosted, hRead⟩ := setForm_eq_some_iff.mp hForm
  obtain ⟨tovars, hTovars, hPosted⟩ := Option.bind_eq_some_iff.mp hPosted
  obtain ⟨tanks, hTanks, hPosted⟩ := Option.bind_eq_some_iff.mp hPosted
  obtain ⟨trks, hTrks, hPosted⟩ := Option.bind_eq_some_iff.mp hPosted
  obtain rfl := Option.some.inj hPosted
  unfold SettingsForm.unread at hRead
  simp only [not_or] at hRead
  obtain ⟨hTovar, hTank, hTrk⟩ := hRead
  unfold Admin.apiSettingsSet
  rw [bind_of_ok (jsonHeader_run w), hParse, bind_of_ok (orThrow_some_run json _), hTovars,
    bind_of_ok (orThrow_some_run tovars _), ite_run, if_neg hTovar, hTanks,
    bind_of_ok (orThrow_some_run tanks _), ite_run, if_neg hTank, hTrks,
    bind_of_ok (orThrow_some_run trks _), ite_run, if_neg hTrk]
  simp only [SettingsForm.store, bind_assoc]

/-- While MySQL executes every statement, the handler stores its form and answers. -/
theorem apiSettingsSet_serves {con : Connection} {t : Mysql.Tables} (req : Request)
    (hServes : Serves con w)
    (hParse : pl.parse req.body = some json) (hForm : setForm json = some form)
    (hStored : form.stored pl.mysql (w.tables con) = some t) :
    ∃ next, Admin.apiSettingsSet pl req w = .ok ⟨⟩ next ∧
      next.response.body = statusText "success" ∧ next.tables con = t ∧ next.azsDb = w.azsDb := by
  have hHeader : Serves con w.jsonReply := ⟨hServes.con_eq, hServes.schema, hServes.sql⟩
  obtain ⟨next, hRun, hEnd⟩ :=
    ((form.sends_store pl con) w.jsonReply hServes.con_eq).1 t (hHeader.executesNext _) hStored
  refine ⟨next.answered "success", ?_, rfl, hEnd.tables_eq, hEnd.azsDb⟩
  rw [apiSettingsSet_of_form hParse hForm, bind_of_ok hRun, replyStatus_run]

theorem apiSettingsDelete_run_of_form_none (hParse : pl.parse req.body = some json)
    (hForm : eraseForm json = none) :
    Admin.apiSettingsDelete pl req w = replyStatus "error" w.jsonReply := by
  have hNone : deleteForm json = none := Option.map_eq_none_iff.mp hForm
  unfold Admin.apiSettingsDelete
  rw [bind_of_ok (jsonHeader_run w), hParse, bind_of_ok (orThrow_some_run json _), hNone]

theorem apiSettingsDelete_of_form_none (hParse : pl.parse req.body = some json)
    (hForm : eraseForm json = none) : Rejected w (Admin.apiSettingsDelete pl req w) := by
  rw [apiSettingsDelete_run_of_form_none hParse hForm]
  exact rejected_error w

theorem apiSettingsDelete_of_form (hParse : pl.parse req.body = some json)
    (hForm : eraseForm json = some form) :
    Admin.apiSettingsDelete pl req w =
      (form.erase pl >>= fun _ => replyStatus "success") w.jsonReply := by
  obtain ⟨⟨tovars, tanks, trks⟩, hLists, rfl⟩ := Option.map_eq_some_iff.mp hForm
  unfold Admin.apiSettingsDelete
  rw [bind_of_ok (jsonHeader_run w), hParse, bind_of_ok (orThrow_some_run json _), hLists]
  simp only [SettingsForm.erase, bind_assoc]

end Handlers

/-! ## What the answers tell -/

/-- The answer `good` is given only if every statement since a state was executed. -/
def TellsTruth (good : String) (w : World) (result : EStateM.Result Throw World Unit) : Prop :=
  ∀ next, result = .ok ⟨⟩ next → next.response.body = statusText good →
    ∀ e ∈ next.linesSince w, e.Succeeded

/-- The condition for `api_settings_set`: it does not come to its statements, or all of them
are executed. -/
def SetGoesThrough (pl : Platform) (con : Connection) (req : Request) (w : World) : Prop :=
  ∀ json form, pl.parse req.body = some json → setForm json = some form →
    w.ExecutesNext con form.setCount ∧ form.storeTovars pl.mysql (w.tables con) ≠ none

/-- The condition for `api_settings_delete`. -/
def EraseGoesThrough (pl : Platform) (con : Connection) (req : Request) (w : World) : Prop :=
  ∀ json form, pl.parse req.body = some json → eraseForm json = some form →
    w.ExecutesNext con form.eraseCount

section Answers

variable {pl : Platform} {con : Connection} {req : Request} {w : World} {n : Nat}

/-- A request that sends no statement tells nothing wrong. -/
theorem Rejected.tellsTruth {result : EStateM.Result Throw World Unit} (hRejected : Rejected w result)
    (good : String) : TellsTruth good w result := by
  obtain ⟨next, hEnds, -, -, hLog⟩ := hRejected.ends
  intro other hRun _ e hMem
  have hSame : other = next := by
    rcases hEnds with hError | ⟨hOk, -⟩
    · rw [hError] at hRun
      cases hRun
    · rw [hOk] at hRun
      cases hRun
      rfl
  rw [hSame, World.linesSince, hLog, List.drop_length] at hMem
  cases hMem

/-- Behind its statements the handler answers in any case. -/
theorem tellsTruth_sends_iff {effect : Mysql.Tables → Option Mysql.Tables} {m : Prog Unit}
    (good : String) (hSends : Sends con n effect m) (hCon : w.azsDb.con = some con) :
    TellsTruth good w ((m >>= fun _ => replyStatus good) w.jsonReply) ↔
      w.ExecutesNext con n ∧ effect (w.tables con) ≠ none := by
  obtain ⟨hDone, hFailed⟩ := hSends w.jsonReply hCon
  by_cases hThrough : w.ExecutesNext con n ∧ effect (w.tables con) ≠ none
  · refine iff_of_true ?_ hThrough
    obtain ⟨t, hEffect⟩ := Option.ne_none_iff_exists'.mp hThrough.2
    obtain ⟨next, hRun, hStored⟩ := hDone t hThrough.1 hEffect
    intro last hLast _ e hMem
    rw [bind_of_ok hRun, replyStatus_run] at hLast
    cases hLast
    exact hStored.succeeded e hMem
  · refine iff_of_false ?_ hThrough
    obtain ⟨next, hRun, hSince, -⟩ := hFailed hThrough
    obtain ⟨e, hMem, hNot⟩ := hSince.failed
    intro hTells
    have hAnswer : (m >>= fun _ => replyStatus good) w.jsonReply = .ok ⟨⟩ (next.answered good) := by
      rw [bind_of_ok hRun, replyStatus_run]
    exact hNot (hTells _ hAnswer rfl e hMem)

theorem tellsTruth_apiSettingsSet_iff (hCon : w.azsDb.con = some con) :
    TellsTruth "success" w (Admin.apiSettingsSet pl req w) ↔ SetGoesThrough pl con req w := by
  unfold SetGoesThrough
  cases hParse : pl.parse req.body with
  | none =>
      refine iff_of_true ((apiSettingsSet_of_parse_none hParse).tellsTruth _) ?_
      intro json form hJson
      cases hJson
  | some json =>
      cases hForm : setForm json with
      | none =>
          refine iff_of_true ((apiSettingsSet_of_form_none hParse hForm).tellsTruth _) ?_
          intro other form hJson hSome
          obtain rfl := Option.some.inj hJson
          rw [hForm] at hSome
          cases hSome
      | some form =>
          rw [apiSettingsSet_of_form hParse hForm, tellsTruth_sends_iff _ (form.sends_store pl con) hCon]
          have hMap : form.stored pl.mysql (w.tables con) ≠ none ↔
              form.storeTovars pl.mysql (w.tables con) ≠ none := by
            rw [SettingsForm.stored, ne_eq, Option.map_eq_none_iff]
          rw [hMap]
          constructor
          · intro hThrough same other hJson hSome
            obtain rfl := Option.some.inj hJson
            rw [hForm] at hSome
            obtain rfl := Option.some.inj hSome
            exact hThrough
          · exact fun hAll => hAll json form rfl hForm

theorem tellsTruth_apiSettingsDelete_iff (hCon : w.azsDb.con = some con) :
    TellsTruth "success" w (Admin.apiSettingsDelete pl req w) ↔ EraseGoesThrough pl con req w := by
  unfold EraseGoesThrough
  cases hParse : pl.parse req.body with
  | none =>
      refine iff_of_true ((apiSettingsDelete_of_parse_none hParse).tellsTruth _) ?_
      intro json form hJson
      cases hJson
  | some json =>
      cases hForm : eraseForm json with
      | none =>
          refine iff_of_true ((apiSettingsDelete_of_form_none hParse hForm).tellsTruth _) ?_
          intro other form hJson hSome
          obtain rfl := Option.some.inj hJson
          rw [hForm] at hSome
          cases hSome
      | some form =>
          rw [apiSettingsDelete_of_form hParse hForm,
            tellsTruth_sends_iff _ (form.sends_erase pl con) hCon]
          constructor
          · rintro ⟨hThrough, -⟩ same other hJson hSome
            obtain rfl := Option.some.inj hJson
            rw [hForm] at hSome
            obtain rfl := Option.some.inj hSome
            exact hThrough
          · exact fun hAll => ⟨hAll json form rfl hForm, Option.some_ne_none _⟩

/-- `api_trk_save` looks at `isConnect` behind its statements, so a failed one gets the
answer "not". -/
theorem tellsTruth_apiTrkSave (hCon : w.azsDb.con = some con) :
    TellsTruth "yes" w (Admin.apiTrkSave pl req w) := by
  unfold Admin.apiTrkSave
  rw [bind_of_ok (jsonHeader_run w)]
  cases hJson : convertLoaded pl.floatText req.body with
  | none =>
      rw [bind_of_error (orThrow_none_run _)]
      exact (rejected_throw w).tellsTruth _
  | some json =>
      rw [bind_of_ok (orThrow_some_run json _)]
      cases hForm : trkSaveForm pl json with
      | none =>
          rw [bind_of_error (orThrow_none_run _)]
          exact (rejected_throw w).tellsTruth _
      | some form =>
          obtain ⟨width, height, trks⟩ := form
          rw [bind_of_ok (orThrow_some_run _ _)]
          show TellsTruth "yes" w ((saveTrks pl trks width height >>= fun _ => isConnect >>=
            fun connected => if connected = false then replyStatus "not" else replyStatus "yes")
              w.jsonReply)
          obtain ⟨hDone, hFailed⟩ := sends_saveTrks pl con trks width height w.jsonReply hCon
          by_cases hThrough : w.jsonReply.ExecutesNext con (1 + (trks.map fun _ => 1).sum) ∧
              savePositions trks width height pl.mysql (w.jsonReply.tables con) ≠ none
          · obtain ⟨t, hEffect⟩ := Option.ne_none_iff_exists'.mp hThrough.2
            obtain ⟨next, hRun, hStored⟩ := hDone t hThrough.1 hEffect
            intro last hLast _ e hMem
            rw [bind_of_ok hRun, bind_of_ok (isConnect_run next), ite_run] at hLast
            have hLog : last.log = next.log := by
              split_ifs at hLast <;> (cases hLast; rfl)
            rw [World.linesSince, hLog] at hMem
            exact hStored.succeeded e hMem
          · obtain ⟨next, hRun, -, hFalse⟩ := hFailed hThrough
            intro last hLast hBody
            rw [bind_of_ok hRun, bind_of_ok (isConnect_run next), hFalse, ite_run, if_pos rfl,
              replyStatus_run] at hLast
            cases hLast
            have hNe : statusText "not" ≠ statusText "yes" := by decide
            exact absurd hBody hNe

/-- `api_settings_set` and `api_settings_delete` answer "success" only behind executed
statements exactly when all their statements are executed; `api_trk_save` answers "yes"
only then in any case. -/
theorem success_told_iff (pl : Platform) (con : Connection) (req : Request) (w : World)
    (hCon : w.azsDb.con = some con) :
    (TellsTruth "success" w (Admin.apiSettingsSet pl req w) ↔ SetGoesThrough pl con req w) ∧
      (TellsTruth "success" w (Admin.apiSettingsDelete pl req w) ↔
        EraseGoesThrough pl con req w) ∧
      TellsTruth "yes" w (Admin.apiTrkSave pl req w) :=
  ⟨tellsTruth_apiSettingsSet_iff hCon, tellsTruth_apiSettingsDelete_iff hCon,
    tellsTruth_apiTrkSave hCon⟩

end Answers

/-! ## One product -/

/-- A product that becomes dearer. -/
def dearerProduct : Json :=
  .object [(ascii "tovars", .array [tovarJson
    { idTovar := 1, price := 60, name := ascii "A95", nameP := [], namePF := [], namePV := [] }])]

/-- The request with it. -/
def dearerRequest : Request := { url := ascii "/api/settings/set", body := dearerProduct.plainText }

/-- A server with one product, whose MySQL server executes these statements. -/
def productWorld (sql : List Bool) : World :=
  { World.fresh with
    azsDb := { con := some ⟨{}, true⟩, isconn := true, azsId := ascii "3" }
    mysql := fun _ => { tovar := [⟨1, 1, ascii "A95", [], [], [], 52, 0⟩] }
    env := { now := .epoch, sql := sql } }

theorem setForm_dearerProduct :
    setForm dearerProduct =
      some ⟨[{ idTovar := 1, price := 60, name := ascii "A95" }], [], []⟩ := by
  decide +kernel

/-- A platform that reads it. -/
def dearerPlatform : Platform := .exchanging .plain [dearerProduct]

theorem parse_dearerRequest : dearerPlatform.parse dearerRequest.body = some dearerProduct :=
  Platform.plain.parse_exchanging dearerProduct

/-- The answer is "success" although the statement has failed. -/
theorem success_told_of_failed_update :
    ¬ TellsTruth "success" (productWorld [false])
      (Admin.apiSettingsSet dearerPlatform dearerRequest (productWorld [false])) := by
  intro hTells
  have hCon : (productWorld [false]).azsDb.con = some ⟨{}, true⟩ := rfl
  have hThrough := (tellsTruth_apiSettingsSet_iff hCon).mp hTells
  exact absurd (hThrough _ _ parse_dearerRequest setForm_dearerProduct).1 (by decide)

/-- It is right once the statement is executed. -/
theorem success_told_of_update :
    TellsTruth "success" (productWorld [true])
      (Admin.apiSettingsSet dearerPlatform dearerRequest (productWorld [true])) := by
  refine (success_told_iff dearerPlatform ⟨{}, true⟩ dearerRequest _ rfl).1.mpr ?_
  intro json form hParse hForm
  obtain rfl := Option.some.inj (parse_dearerRequest.symm.trans hParse)
  obtain rfl := Option.some.inj (setForm_dearerProduct.symm.trans hForm)
  decide +kernel

end Server
end AzsServer
