import AzsServer.Server.Serving
import AzsServer.Server.Routes
import AzsServer.Library.Runs
import AzsServer.Local.SavedConnection

/-!
# Posted connection data

`settingsdb_error_send` hands the posted data to `connect_async` and answers "ok"
whether or not this has started an attempt.  While another attempt is on its way, which
every page request starts as long as there is no connection, the posted data are dropped.
-/

namespace AzsServer
namespace Server

open Core Library Local

/-- The connection data in a body that `settingsdb_error_send` accepts. -/
def sendForm (pl : Platform) (body : Bytes) : Option MysqlConnInfo := do
  let x ← pl.parse body
  let text ← pl.dump x
  if text = ascii "null" ∨ text = ascii "[]" ∨ text = ascii "\"\"" then none else postedInfo x

/-- The client may see and change the connection data. -/
def SettingsAllowed (pl : Platform) (req : Request) (w : World) : Prop :=
  w.azsDb.isconn = false ∨ ∃ next, checkCoockie pl req w = .ok 1 next

instance (pl : Platform) (req : Request) (w : World) : Decidable (SettingsAllowed pl req w) :=
  decidable_of_iff (w.azsDb.isconn = false ∨
      (match checkCoockie pl req w with
        | .ok result _ => decide (result = 1)
        | .error _ _ => false) = true) <| by
    refine or_congr Iff.rfl ?_
    cases checkCoockie pl req w with
    | error e next => exact ⟨fun hFalse => (by cases hFalse), fun ⟨_, hOk⟩ => by cases hOk⟩
    | ok result next =>
        rw [decide_eq_true_iff]
        constructor
        · rintro rfl
          exact ⟨next, rfl⟩
        · rintro ⟨other, hSame⟩
          exact (EStateM.Result.ok.inj hSame).1

/-- Lines other than the start of a connect attempt. -/
def Entry.isUnconnected : Entry → Prop
  | .connecting _ => False
  | _ => True

section Send

variable {pl : Platform} {req : Request} {w : World}

/-- A cookie check starts no attempt and keeps the object `azs_db` and the reply. -/
structure OnlyChecked (w next : World) : Prop where
  azsDb : next.azsDb = w.azsDb
  response : next.response = w.response
  log : LogGrows Entry.isUnconnected w next

theorem OnlyChecked.refl (w : World) : OnlyChecked w w := ⟨rfl, rfl, .of_eq rfl⟩

theorem onlyChecked_afterVerify (pl : Platform) (bare : Bytes) (w : World) :
    OnlyChecked w (afterVerify pl bare w) where
  azsDb := azsDb_afterSecret pl w
  response := response_afterSecret pl w
  log := by
    obtain ⟨more, hLog, hMore⟩ := log_afterSecret pl w
    refine .trans (w := afterSecret pl w) ⟨more, hLog, fun e hMem => ?_⟩ (.of_line rfl trivial)
    obtain ⟨drawn, returned, rfl⟩ := hMore e hMem
    trivial

/-- The guard of the settings pages throws or says whether the client is allowed. -/
theorem settingsAllowed_cases (pl : Platform) (req : Request) (w : World) :
    settingsAllowed pl req w = .error .stdException w ∧ ¬ SettingsAllowed pl req w ∨
      ∃ allowed next, settingsAllowed pl req w = .ok allowed next ∧ OnlyChecked w next ∧
        (allowed = true ↔ SettingsAllowed pl req w) := by
  cases hIsconn : w.azsDb.isconn with
  | false =>
      refine Or.inr ⟨true, w, ?_, .refl w, fun _ => Or.inl hIsconn, fun _ => rfl⟩
      rw [settingsAllowed, bind_of_ok (isConnect_run w), hIsconn]
      rfl
  | true =>
      have hRun : settingsAllowed pl req w =
          (checkCoockie pl req >>= fun result => pure (decide (result = 1))) w := by
        rw [settingsAllowed, bind_of_ok (isConnect_run w), hIsconn]
        rfl
      have hOnly : SettingsAllowed pl req w ↔ ∃ next, checkCoockie pl req w = .ok 1 next := by
        rw [SettingsAllowed, hIsconn]
        exact ⟨fun h => h.resolve_left (by decide), Or.inr⟩
      have hResult : ∀ result next, checkCoockie pl req w = .ok result next → OnlyChecked w next →
          ∃ allowed next, settingsAllowed pl req w = .ok allowed next ∧ OnlyChecked w next ∧
            (allowed = true ↔ SettingsAllowed pl req w) := by
        intro result next hCheck hOnlyChecked
        refine ⟨decide (result = 1), next, hRun.trans (bind_of_ok hCheck), hOnlyChecked, ?_⟩
        rw [decide_eq_true_iff, hOnly, hCheck]
        constructor
        · rintro rfl
          exact ⟨next, rfl⟩
        · rintro ⟨other, hSame⟩
          exact (EStateM.Result.ok.inj hSame).1
      rcases checkCoockie_cases pl req w with hError | hNone | ⟨token, bare, payload, -, hEnd⟩
      · refine Or.inl ⟨hRun.trans (bind_of_error hError), ?_⟩
        rw [hOnly, hError]
        rintro ⟨next, hOk⟩
        cases hOk
      · exact Or.inr (hResult _ _ hNone (.refl w))
      · exact Or.inr (hResult _ _ hEnd (onlyChecked_afterVerify pl bare w))

/-- A free server starts an attempt with the data. -/
theorem connectAsync_of_free {info : MysqlConnInfo} (hFree : w.azsDb.whileConn = false) :
    connectAsync info w = .ok ⟨⟩
      { w with
        azsDb := { w.azsDb with lastInputInfo := info, whileConn := true }
        log := w.log ++ [.connecting info]
        started := w.started ++ [info] } := by
  rw [connectAsync, get_bind_run, ite_run, if_pos hFree]
  rfl

/-- A busy one drops them. -/
theorem connectAsync_of_busy {info : MysqlConnInfo} (hBusy : w.azsDb.whileConn = true) :
    connectAsync info w = .ok ⟨⟩ w := by
  rw [connectAsync, get_bind_run, ite_run, if_neg (by rw [hBusy]; decide)]
  rfl

/-- Behind the guard a readable form goes to `connect_async`, and the answer is "ok". -/
theorem settingsdbErrorSend_of_form {next : World} {info : MysqlConnInfo}
    (hAllowed : settingsAllowed pl req w = .ok true next) (hForm : sendForm pl req.body = some info) :
    settingsdbErrorSend pl req w = (connectAsync info >>= fun _ => replyStatus "ok") next := by
  obtain ⟨x, hParse, hRest⟩ := Option.bind_eq_some_iff.mp hForm
  obtain ⟨text, hDump, hInfo⟩ := Option.bind_eq_some_iff.mp hRest
  split_ifs at hInfo with hEmpty
  rw [settingsdbErrorSend, bind_of_ok hAllowed, if_pos rfl, hParse]
  show (orThrow (pl.dump x) >>= _ : Prog Unit) next = _
  rw [hDump]
  show (if text = ascii "null" ∨ text = ascii "[]" ∨ text = ascii "\"\"" then _ else _ :
    Prog Unit) next = _
  rw [if_neg hEmpty, hInfo]
  rfl

/-- A client that is not allowed is sent away. -/
theorem settingsdbErrorSend_of_denied {next : World}
    (hDenied : settingsAllowed pl req w = .ok false next) :
    settingsdbErrorSend pl req w = (redirect (ascii "/") >>= fun _ => endResponse) next := by
  rw [settingsdbErrorSend, bind_of_ok hDenied, if_neg Bool.false_ne_true]

end Send

/-! ## Events -/

/-- If the event is a post that is answered with "ok", an attempt with exactly the posted
data has been started and `last_input_info` holds them. -/
def PostKept (pl : Platform) (s : Process) : Event → Prop
  | .request .settingsDberrorSend cookie body env =>
      ∀ next info, s.handled pl .settingsDberrorSend cookie body env = .ok ⟨⟩ next →
        next.response.body = statusText "ok" → sendForm pl body = some info →
          .connecting info ∈ next.linesSince s.world ∧ next.azsDb.lastInputInfo = info
  | _ => True

/-- The condition on an event: an accepted post finds no attempt on its way. -/
def PostFindsFree (pl : Platform) (s : Process) : Event → Prop
  | .request .settingsDberrorSend cookie body env =>
      SettingsAllowed pl ⟨Route.url .settingsDberrorSend, cookie, body⟩ (s.world.received env) →
        sendForm pl body ≠ none → s.world.azsDb.whileConn = false
  | _ => True

section Events

variable {pl : Platform}

/-- A post keeps its data exactly under the condition. -/
theorem postKept_iff (pl : Platform) (s : Process) (e : Event) :
    PostKept pl s e ↔ PostFindsFree pl s e := by
  cases e with
  | start env => exact Iff.rfl
  | lock i => exact Iff.rfl
  | work env => exact Iff.rfl
  | request route cookie body env =>
  cases route with
  | settingsDberrorSend =>
      have hCases := settingsAllowed_cases pl ⟨Route.url .settingsDberrorSend, cookie, body⟩
        (s.world.received env)
      constructor
      · -- a busy server starts nothing
        intro hKept hAllowed hForm
        obtain ⟨info, hInfo⟩ := Option.ne_none_iff_exists'.mp hForm
        rcases hCases with ⟨-, hNot⟩ | ⟨allowed, next, hRun, hOnly, hIff⟩
        · exact absurd hAllowed hNot
        rw [hIff.mpr hAllowed] at hRun
        have hSend := settingsdbErrorSend_of_form hRun hInfo
        by_contra hBusy
        have hWhile : next.azsDb.whileConn = true := by
          rw [hOnly.azsDb]
          exact Bool.not_eq_false _ ▸ hBusy
        rw [bind_of_ok (connectAsync_of_busy hWhile)] at hSend
        obtain ⟨hLine, -⟩ := hKept _ info hSend rfl hInfo
        exact hOnly.log.mem_linesSince hLine
      · intro hFree next info hRun hOk hInfo
        rcases hCases with ⟨hError, -⟩ | ⟨allowed, checked, hChecked, hOnly, hIff⟩
        · -- the guard throws
          have hThrown : s.handled pl .settingsDberrorSend cookie body env =
              .error .stdException (s.world.received env) := bind_of_error hError
          rw [hThrown] at hRun
          cases hRun
        cases allowed with
        | false =>
            have hSent : s.handled pl .settingsDberrorSend cookie body env =
                (redirect (ascii "/") >>= fun _ => endResponse) checked :=
              settingsdbErrorSend_of_denied hChecked
            rw [hSent] at hRun
            cases hRun
            have hEmpty : checked.response.body = [] := by rw [hOnly.response]; rfl
            have hBody : checked.response.body = statusText "ok" := hOk
            rw [hEmpty] at hBody
            exact absurd hBody (by decide)
        | true =>
            have hWhile : checked.azsDb.whileConn = false := by
              rw [hOnly.azsDb]
              exact hFree (hIff.mp rfl) (by rw [hInfo]; exact Option.some_ne_none _)
            have hSent : s.handled pl .settingsDberrorSend cookie body env =
                (connectAsync info >>= fun _ => replyStatus "ok") checked :=
              settingsdbErrorSend_of_form hChecked hInfo
            rw [hSent, bind_of_ok (connectAsync_of_free hWhile)] at hRun
            cases hRun
            refine ⟨?_, rfl⟩
            obtain ⟨more, hLog, -⟩ := hOnly.log
            have hLog : checked.log = s.world.log ++ more := hLog
            show _ ∈ (checked.log ++ [Entry.connecting info]).drop s.world.log.length
            rw [hLog, List.append_assoc, List.drop_left]
            exact List.mem_append_right _ List.mem_cons_self
  | _ => exact Iff.rfl

/-- In every run from every state the accepted posts keep their data exactly when every
accepted post finds no attempt on its way. -/
theorem posts_kept_iff (pl : Platform) (s : Process) (events : List Event) :
    StepsMeet (Process.step pl) (PostKept pl) s events ↔
      StepsMeet (Process.step pl) (PostFindsFree pl) s events :=
  ⟨stepsMeet_mono fun s e => (postKept_iff pl s e).mp,
    stepsMeet_mono fun s e => (postKept_iff pl s e).mpr⟩

instance (pl : Platform) (s : Process) : DecidablePred (PostFindsFree pl s)
  | .request .settingsDberrorSend cookie body env => inferInstanceAs (Decidable
      (SettingsAllowed pl ⟨Route.url .settingsDberrorSend, cookie, body⟩ (s.world.received env) →
        sendForm pl body ≠ none → s.world.azsDb.whileConn = false))
  | .start _ => isTrue trivial
  | .lock _ => isTrue trivial
  | .work _ => isTrue trivial
  | .request (.publicFiles _) _ _ _ => isTrue trivial
  | .request .root _ _ _ => isTrue trivial
  | .request .auth _ _ _ => isTrue trivial
  | .request .settingsDberror _ _ _ => isTrue trivial
  | .request .settingsDberrorCheck _ _ _ => isTrue trivial
  | .request .api _ _ _ => isTrue trivial
  | .request (.client _) _ _ _ => isTrue trivial

/-- A page request of anybody starts an attempt, and the data that the operator posts
meanwhile are dropped. -/
theorem post_dropped_behind_page :
    ¬ StepsMeet (Process.step (Platform.plain.exchanging [infoForm firstInfo]))
      (PostKept (Platform.plain.exchanging [infoForm firstInfo])) .fresh
      [.start unreachable, .request .root [] [] unreachable,
        .request .settingsDberrorSend [] (infoForm firstInfo).plainText unreachable] := by
  intro hKept
  have hFree := stepsMeet_mono (fun s e => (postKept_iff _ s e).mp) hKept
  revert hFree
  decide +kernel

end Events

end Server
end AzsServer
