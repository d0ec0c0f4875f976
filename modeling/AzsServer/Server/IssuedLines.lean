import AzsServer.Library.Traces
import AzsServer.Server.Calls
import AzsServer.Server.SettingsAnswers

/-!
# The statements of the storing methods

The statements that the loops of `api_settings_set` and `api_settings_delete` send, in their
order.  A method with one statement sends it in any case; `set_Trk` ends behind the first one that
is not executed, and its nozzles have the ids of the form unless they are new.
-/

namespace AzsServer
namespace Server

open Core Library

/-! ## Statements as words -/

/-- One statement of a kind, executed or not. -/
def sent (kind : Mysql.Update → Prop) : Language Entry :=
  {lines | ∃ u executed, kind u ∧ lines = [Entry.update u executed]}

/-- The question for the largest nozzle of a pump. -/
def askedMax (pump : Int → Prop) : Language Entry :=
  {lines | ∃ idTrk executed, pump idTrk ∧ lines = [Entry.select (maxIdPistSql idTrk) executed]}

section Words

variable {kind other : Mysql.Update → Prop} {pump more : Int → Prop}

theorem sent_le (hLe : ∀ u, kind u → other u) : sent kind ≤ sent other := by
  rintro lines ⟨u, executed, hKind, rfl⟩
  exact ⟨u, executed, hLe u hKind, rfl⟩

theorem askedMax_le (hLe : ∀ idTrk, pump idTrk → more idTrk) : askedMax pump ≤ askedMax more := by
  rintro lines ⟨idTrk, executed, hPump, rfl⟩
  exact ⟨idTrk, executed, hLe idTrk hPump, rfl⟩

theorem meet_sent_iff : Meet (sent kind) (sent other) ↔ ∃ u, kind u ∧ other u := by
  constructor
  · rintro ⟨lines, ⟨u, executed, hKind, rfl⟩, v, executedToo, hOther, hSame⟩
    obtain ⟨rfl, -⟩ := Entry.update.inj (List.singleton_inj.mp hSame)
    exact ⟨u, hKind, hOther⟩
  · rintro ⟨u, hKind, hOther⟩
    exact ⟨_, ⟨u, true, hKind, rfl⟩, u, true, hOther, rfl⟩

theorem noLonger_sent (kind other : Mysql.Update → Prop) : NoLonger (sent kind) (sent other) := by
  rintro _ ⟨u, executed, -, rfl⟩ _ ⟨v, executedToo, -, rfl⟩
  exact le_rfl

theorem noLonger_askedMax (pump more : Int → Prop) : NoLonger (askedMax pump) (askedMax more) := by
  rintro _ ⟨idTrk, executed, -, rfl⟩ _ ⟨other, executedToo, -, rfl⟩
  exact le_rfl

theorem nil_notMem_sent (kind : Mysql.Update → Prop) : [] ∉ sent kind := by
  rintro ⟨u, executed, -, hNil⟩
  cases hNil

end Words

/-- The statement of `set_Tank`. -/
def Tank.update (tank : Tank) : Mysql.Update :=
  .setTank tank.idTank tank.idTovar tank.volume tank.remain

/-- The first statement of `set_Trk`. -/
def Trk.update (trk : Trk) : Mysql.Update :=
  .setComTrk trk.idTrk trk.xPos trk.yPos trk.scale

/-- The statement of `set_Trk` for a nozzle; a new one gets an id of its own. -/
def PistUpdate (idTrk : Int) (pist : Pist) : Mysql.Update → Prop
  | .insertTrk trk _ tank => pist.idPist = 0 ∧ trk = idTrk ∧ tank = pist.idTank
  | .updateTrk trk id tank => pist.idPist ≠ 0 ∧ trk = idTrk ∧ id = pist.idPist ∧ tank = pist.idTank
  | _ => False

/-- What `set_Trk` sends if all its statements are executed. -/
def Trk.wholeLines (trk : Trk) : Language Entry :=
  sent (· = trk.update) * (askedMax (· = trk.idTrk) *
    (trk.pists.map fun pist => sent (PistUpdate trk.idTrk pist)).prod)

/-- What `set_Trk` sends in any case. -/
def Trk.lines (trk : Trk) : Language Entry :=
  sent (· = trk.update) * (1 + askedMax (· = trk.idTrk) *
    upTo (fun pist => sent (PistUpdate trk.idTrk pist)) trk.pists)

/-- What `delete_Trk` sends with `smart_delete`. -/
def Trk.eraseLines (trk : Trk) : Language Entry :=
  if trk.pists = [] then sent (· = .deleteComTrk trk.idTrk)
  else (trk.pists.map fun pist => sent (· = .deletePist trk.idTrk pist.idPist)).prod

namespace SettingsForm

/-- What `store` sends, with the statements of each pump. -/
def storeLines (form : SettingsForm) (pump : Trk → Language Entry) : Language Entry :=
  (form.tovars.map fun tovar => sent (· = tovar.update)).prod *
    ((form.tanks.map fun tank => sent (· = tank.update)).prod * (form.trks.map pump).prod)

/-- What `erase` sends. -/
def eraseLines (form : SettingsForm) : Language Entry :=
  (form.tovars.map fun tovar => sent (· = .deleteTovar tovar.idTovar)).prod *
    ((form.tanks.map fun tank => sent (· = .deleteTank tank.idTank)).prod *
      (form.trks.map Trk.eraseLines).prod)

end SettingsForm

/-! ## The methods -/

/-- The program returns behind some lines, and its statements fail behind others. -/
abbrev Lines (done failed : Language Entry) {α : Type} (m : Prog α) : Prop :=
  Writes World.log Throw.sqlException done failed m

/-- The `try` block of `set_Trk`. -/
def trySetTrk (pl : Platform) (trk : Trk) : Prog Unit := do
  executeUpdate pl (.setComTrk trk.idTrk trk.xPos trk.yPos trk.scale)
  let res ← executeQuery (maxIdPistSql trk.idTrk) (maxIdPistRows trk.idTrk)
  let maxIdPist := res.headD 0
  setPists pl trk.idTrk maxIdPist 0 trk.pists

section Methods

variable {pl : Platform} {done failed : Language Entry} {α : Type}

/-- A call on the connection returns or throws behind its lines; without a connection it writes
none. -/
theorem lines_of_connected {m : Prog α} (hNull : ∀ w, w.azsDb.con = none → m w = .error .nullCall w)
    (hRun : ∀ w con, w.azsDb.con = some con →
      (∃ a next, m w = .ok a next ∧ Adds World.log done w next) ∨
        ∃ next, m w = .error .sqlException next ∧ Adds World.log failed w next) :
    Lines done failed m := by
  have hEnds : ∀ w, m w = .error .nullCall w ∨
      (∃ a next, m w = .ok a next ∧ Adds World.log done w next) ∨
        ∃ next, m w = .error .sqlException next ∧ Adds World.log failed w next := by
    intro w
    cases hCon : w.azsDb.con with
    | none => exact Or.inl (hNull w hCon)
    | some con => exact Or.inr (hRun w con hCon)
  constructor
  · intro w a next hOk
    rcases hEnds w with hEnd | ⟨b, other, hEnd, hAdds⟩ | ⟨other, hEnd, -⟩
    · rw [hEnd] at hOk
      cases hOk
    · rw [hEnd] at hOk
      cases hOk
      exact hAdds
    · rw [hEnd] at hOk
      cases hOk
  · intro w next hError
    rcases hEnds w with hEnd | ⟨b, other, hEnd, -⟩ | ⟨other, hEnd, hAdds⟩
    · rw [hEnd] at hError
      cases hError
    · rw [hEnd] at hError
      cases hError
    · rw [hEnd] at hError
      cases hError
      exact hAdds

theorem lines_executeUpdate (pl : Platform) (u : Mysql.Update) :
    Lines (sent (· = u)) (sent (· = u)) (executeUpdate pl u) := by
  refine lines_of_connected (fun w hCon => bind_of_error (connection_run_of_none hCon)) ?_
  intro w con hCon
  by_cases hThrough : w.executes con = true ∧ u.run pl.mysql (w.tables con) ≠ none
  · obtain ⟨t, hTables⟩ := Option.ne_none_iff_exists'.mp hThrough.2
    exact Or.inl ⟨⟨⟩, _, executeUpdate_executed ⟨hCon, hThrough.1⟩ hTables, _, ⟨u, true, rfl, rfl⟩, rfl⟩
  · have hRefused : w.executes con = true → u.run pl.mysql (w.tables con) = none := by
      intro hExecutes
      by_contra hSome
      exact hThrough ⟨hExecutes, hSome⟩
    exact Or.inr ⟨_, executeUpdate_refused hCon hRefused, _, ⟨u, false, rfl, rfl⟩, rfl⟩

theorem lines_maxIdPist (idTrk : Int) :
    Lines (askedMax (· = idTrk)) (askedMax (· = idTrk))
      (executeQuery (maxIdPistSql idTrk) (maxIdPistRows idTrk)) := by
  refine lines_of_connected (fun w hCon => bind_of_error (connection_run_of_none hCon)) ?_
  intro w con hCon
  cases hExecutes : w.executes con with
  | false =>
      exact Or.inr ⟨_, executeQuery_refused _ _ ⟨hCon, hExecutes⟩, _, ⟨idTrk, false, rfl, rfl⟩, rfl⟩
  | true =>
      exact Or.inl ⟨_, _, executeQuery_executed _ _ ⟨hCon, hExecutes⟩, _, ⟨idTrk, true, rfl, rfl⟩, rfl⟩

/-- A `try` block returns behind the lines of both ends. -/
theorem lines_guarded {m : Prog α} (hLines : Lines done failed m) (value : α) :
    Lines (done + failed) 0 (guarded m value) := by
  -- an exception that is not caught is thrown on
  have hThrown : ∀ w e next, e ≠ .sqlException → m w = .error e next →
      guarded m value w = .error e next := by
    intro w e next hNe hRun
    unfold guarded catchSql
    rw [hRun]
    cases e with
    | sqlException => exact absurd rfl hNe
    | _ => rfl
  constructor
  · intro w a next hOk
    cases hRun : m w with
    | ok b after =>
        rw [guarded_of_ok hRun] at hOk
        cases hOk
        exact (hLines.done w a next hRun).mono (le_add_of_nonneg_right zero_le)
    | error e after =>
        by_cases hCaught : e = .sqlException
        · subst hCaught
          rw [guarded_of_sqlException value hRun] at hOk
          cases hOk
          show Adds World.log (done + failed) w after
          exact (hLines.failed w after hRun).mono (le_add_of_nonneg_left zero_le)
        · rw [hThrown w e after hCaught hRun] at hOk
          cases hOk
  · intro w next hError
    cases hRun : m w with
    | ok b after =>
        rw [guarded_of_ok hRun] at hError
        cases hError
    | error e after =>
        by_cases hCaught : e = .sqlException
        · subst hCaught
          rw [guarded_of_sqlException value hRun] at hError
          cases hError
        · rw [hThrown w e after hCaught hRun] at hError
          cases hError
          exact absurd rfl hCaught

theorem lines_guarded_executeUpdate (pl : Platform) (u : Mysql.Update) :
    Lines (sent (· = u)) 0 (guarded (executeUpdate pl u) ⟨⟩) :=
  (lines_guarded (lines_executeUpdate pl u) ⟨⟩).mono (add_idem _).le le_rfl

theorem lines_executeSql (pl : Platform) (u : Mysql.Update) :
    Lines (sent (· = u)) 0 (discard (executeSql pl u)) := by
  have hTry : Lines (sent (· = u)) (sent (· = u)) (executeUpdate pl u >>= fun _ => pure true) := by
    refine ((lines_executeUpdate pl u).bind fun _ => .pure true).mono ?_ ?_
    · rw [mul_one]
    · rw [mul_zero, add_zero]
  exact (lines_guarded hTry false).discard.mono (add_idem _).le le_rfl

/-- The loop over the nozzles sends one statement for each of them. -/
theorem lines_setPists (pl : Platform) (idTrk maxId n : Int) (pists : List Pist) :
    Lines (pists.map fun pist => sent (PistUpdate idTrk pist)).prod
      (upTo (fun pist => sent (PistUpdate idTrk pist)) pists) (setPists pl idTrk maxId n pists) := by
  induction pists generalizing n with
  | nil => exact (Writes.pure PUnit.unit).mono le_rfl zero_le
  | cons pist pists ih =>
      rw [List.map_cons, List.prod_cons]
      -- a failed statement is the last one of a beginning
      have hStep : ∀ u n, PistUpdate idTrk pist u →
          Lines (sent (PistUpdate idTrk pist) *
              (pists.map fun pist => sent (PistUpdate idTrk pist)).prod)
            (upTo (fun pist => sent (PistUpdate idTrk pist)) (pist :: pists))
            (executeUpdate pl u >>= fun _ => setPists pl idTrk maxId n pists) := by
        intro u n hUpdate
        have hLe : sent (· = u) ≤ sent (PistUpdate idTrk pist) := sent_le fun _ hSame => hSame ▸ hUpdate
        refine ((lines_executeUpdate pl u).bind fun _ => ih n).mono (mul_le_mul' hLe le_rfl) ?_
        have hRest := le_add_of_nonneg_left (a := sent (PistUpdate idTrk pist) *
          upTo (fun pist => sent (PistUpdate idTrk pist)) pists) (b := (1 : Language Entry)) zero_le
        calc sent (· = u) + sent (· = u) * upTo _ pists
            ≤ sent (PistUpdate idTrk pist) * upTo _ pists +
                sent (PistUpdate idTrk pist) * upTo _ pists :=
              add_le_add (hLe.trans (le_mul_of_one_le (one_le_upTo _ pists)))
                (mul_le_mul' hLe le_rfl)
          _ = sent (PistUpdate idTrk pist) * upTo _ pists := add_idem _
          _ ≤ upTo _ (pist :: pists) := hRest
      unfold setPists
      by_cases hNew : pist.idPist = 0
      · rw [if_pos hNew]
        exact hStep _ _ ⟨hNew, rfl, rfl⟩
      · rw [if_neg hNew]
        exact hStep _ _ ⟨hNew, rfl, rfl, rfl⟩

theorem lines_setTovar (pl : Platform) (tovar : Tovar) :
    Lines (sent (· = tovar.update)) 0 (setTovar pl tovar) :=
  lines_guarded_executeUpdate pl tovar.update

theorem lines_setTank (pl : Platform) (tank : Tank) :
    Lines (sent (· = tank.update)) 0 (setTank pl tank) :=
  lines_guarded_executeUpdate pl tank.update

theorem Trk.wholeLines_le (trk : Trk) : trk.wholeLines ≤ trk.lines := by
  refine mul_le_mul' le_rfl ?_
  calc askedMax (· = trk.idTrk) * (trk.pists.map fun pist => sent (PistUpdate trk.idTrk pist)).prod
      ≤ askedMax (· = trk.idTrk) * upTo (fun pist => sent (PistUpdate trk.idTrk pist)) trk.pists :=
        mul_le_mul' le_rfl (prod_le_upTo _ trk.pists)
    _ ≤ 1 + askedMax (· = trk.idTrk) *
          upTo (fun pist => sent (PistUpdate trk.idTrk pist)) trk.pists :=
        le_add_of_nonneg_left zero_le

theorem lines_trySetTrk (pl : Platform) (trk : Trk) :
    Lines trk.wholeLines trk.lines (trySetTrk pl trk) := by
  have hPists := fun res : List Int => lines_setPists pl trk.idTrk (res.headD 0) 0 trk.pists
  refine ((lines_executeUpdate pl trk.update).bind fun _ =>
    (lines_maxIdPist trk.idTrk).bind hPists).mono le_rfl ?_
  -- the first statement fails, or the second one, or one of the loop
  have hBegun : (1 : Language Entry) ≤ 1 + askedMax (· = trk.idTrk) *
      upTo (fun pist => sent (PistUpdate trk.idTrk pist)) trk.pists :=
    le_add_of_nonneg_right zero_le
  have hAsked : askedMax (· = trk.idTrk) ≤ askedMax (· = trk.idTrk) *
      upTo (fun pist => sent (PistUpdate trk.idTrk pist)) trk.pists :=
    le_mul_of_one_le (one_le_upTo _ trk.pists)
  have hLater : sent (· = trk.update) * (askedMax (· = trk.idTrk) + askedMax (· = trk.idTrk) *
      upTo (fun pist => sent (PistUpdate trk.idTrk pist)) trk.pists) ≤ trk.lines := by
    refine mul_le_mul' le_rfl (le_trans ?_ (le_add_of_nonneg_left zero_le))
    exact (add_le_add hAsked le_rfl).trans (add_idem _).le
  exact (add_le_add (le_mul_of_one_le hBegun) hLater).trans (add_idem _).le

theorem lines_setTrk (pl : Platform) (trk : Trk) : Lines trk.lines 0 (setTrk pl trk) :=
  (lines_guarded (lines_trySetTrk pl trk) ⟨⟩).mono
    ((add_le_add trk.wholeLines_le le_rfl).trans (add_idem _).le) le_rfl

theorem lines_deleteTrk (pl : Platform) (trk : Trk) :
    Lines trk.eraseLines 0 (deleteTrk pl trk true) := by
  have hSmart : ¬ true = false := by simp
  unfold deleteTrk Trk.eraseLines
  rw [if_neg hSmart]
  by_cases hNone : trk.pists = []
  · rw [if_pos hNone, if_pos hNone]
    exact lines_executeSql pl _
  · rw [if_neg hNone, if_neg hNone]
    exact .forM (fun pist => lines_executeSql pl _) trk.pists

namespace SettingsForm

theorem lines_store (pl : Platform) (form : SettingsForm) :
    Lines (form.storeLines Trk.lines) 0 (form.store pl) := by
  have hTanks := Writes.forM (lines_setTank pl) form.tanks
  have hTrks := Writes.forM (lines_setTrk pl) form.trks
  refine ((Writes.forM (lines_setTovar pl) form.tovars).bind fun _ =>
    hTanks.bind fun _ => hTrks).mono le_rfl ?_
  simp only [mul_zero, add_zero, le_refl]

theorem lines_erase (pl : Platform) (form : SettingsForm) :
    Lines form.eraseLines 0 (form.erase pl) := by
  have hTovars := Writes.forM (fun tovar : Tovar =>
    lines_executeSql pl (.deleteTovar tovar.idTovar)) form.tovars
  have hTanks := Writes.forM (fun tank : Tank =>
    lines_executeSql pl (.deleteTank tank.idTank)) form.tanks
  have hTrks := Writes.forM (lines_deleteTrk pl) form.trks
  refine (hTovars.bind fun _ => hTanks.bind fun _ => hTrks).mono le_rfl ?_
  simp only [mul_zero, add_zero, le_refl]

end SettingsForm

end Methods

/-! ## Over a server that executes every statement -/

/-- While MySQL executes every statement, the program returns behind a word of the language. -/
def Served (con : Connection) (L : Language Entry) (m : Prog Unit) : Prop :=
  ∀ w, Serves con w → ∃ next, m w = .ok ⟨⟩ next ∧ Serves con next ∧ Adds World.log L w next

section Served

variable {pl : Platform} {con : Connection} {L M : Language Entry} {m rest : Prog Unit}

theorem Served.pure (con : Connection) : Served con 1 (Pure.pure ⟨⟩) := fun w hServes =>
  ⟨w, rfl, hServes, .refl World.log w⟩

theorem Served.bind (hFirst : Served con L m) (hRest : Served con M rest) :
    Served con (L * M) (m >>= fun _ => rest) := by
  intro w hServes
  obtain ⟨middle, hRun, hMiddle, hAdds⟩ := hFirst w hServes
  obtain ⟨next, hRunRest, hNext, hAddsRest⟩ := hRest middle hMiddle
  exact ⟨next, (bind_of_ok hRun).trans hRunRest, hNext, hAdds.trans hAddsRest⟩

theorem Served.forM {α : Type} {L : α → Language Entry} {body : α → Prog Unit}
    (hBody : ∀ a, Served con (L a) (body a)) (as : List α) :
    Served con (as.map L).prod (as.forM body) := by
  induction as with
  | nil => exact .pure con
  | cons a as ih => exact (hBody a).bind ih

/-- The handlers do not change what MySQL executes. -/
theorem Calls.serves {α : Type} {n : Prog α} {allowed : Entry → Prop} {offRow : Prop}
    (con : Connection) (hCalls : Calls pl allowed offRow n) : Keeps (Serves con) (fun _ => True) n := by
  apply hCalls.keeps_of_steps
  · exact fun w hServes => ⟨hServes.con_eq, hServes.schema, fun executed hMem =>
      hServes.sql executed (List.mem_of_mem_tail hMem)⟩
  · exact fun w e hServes _ => hServes.observed e
  · exact fun w place u tables hServes _ _ => ⟨hServes.con_eq, hServes.schema, hServes.sql⟩
  · exact fun w hServes => ⟨hServes.con_eq, hServes.schema, hServes.sql⟩
  · exact fun w f hServes => ⟨hServes.con_eq, hServes.schema, hServes.sql⟩
  · exact fun _ _ _ _ _ => trivial
  · exact fun _ _ => trivial

/-- A method that returns in any case. -/
theorem served_of_lines {allowed : Entry → Prop} {offRow : Prop} {n : Nat} {failed : Language Entry}
    {effect : Mysql.Tables → Option Mysql.Tables} (hCalls : Calls pl allowed offRow m)
    (hSends : Sends con n effect m) (hLines : Lines L failed m) : Served con L m := by
  intro w hServes
  obtain ⟨next, hRun⟩ := hSends.returns hServes.con_eq
  have hNext := hCalls.serves con w hServes
  rw [hRun] at hNext
  exact ⟨next, hRun, hNext, hLines.done w ⟨⟩ next hRun⟩

/-- Then `set_Trk` comes to its last nozzle. -/
theorem served_setTrk (pl : Platform) (con : Connection) (trk : Trk) :
    Served con trk.wholeLines (setTrk pl trk) := by
  intro w hServes
  have hMax := Statements.executeQuery con (maxIdPistSql trk.idTrk) (maxIdPistRows trk.idTrk)
  have hTry := (Statements.executeUpdate pl con trk.update).bind fun _ => hMax.bind fun res =>
    statements_setPists pl con trk.idTrk (res.headD 0) 0 trk.pists
  obtain ⟨next, hRun, -⟩ := (hTry w hServes.con_eq).1 ⟨⟩ _ (hServes.executesNext _) rfl
  have hRun : trySetTrk pl trk w = .ok ⟨⟩ next := hRun
  have hSet : setTrk pl trk w = .ok ⟨⟩ next := guarded_of_ok hRun
  have hCalls : Calls pl Entry.isDatabaseLine False (setTrk pl trk) := .setTrk trk
  have hNext := hCalls.serves con w hServes
  rw [hSet] at hNext
  exact ⟨next, hSet, hNext, (lines_trySetTrk pl trk).done w ⟨⟩ next hRun⟩

theorem SettingsForm.served_store (pl : Platform) (con : Connection) (form : SettingsForm) :
    Served con (form.storeLines Trk.wholeLines) (form.store pl) := by
  have hTovar := fun tovar => served_of_lines (Calls.setTovar tovar) (sends_setTovar pl con tovar)
    (lines_setTovar pl tovar)
  have hTank := fun tank => served_of_lines (Calls.setTank tank) (sends_setTank pl con tank)
    (lines_setTank pl tank)
  exact (Served.forM hTovar form.tovars).bind
    ((Served.forM hTank form.tanks).bind (.forM (served_setTrk pl con) form.trks))

end Served

/-! ## Over a server that refuses statements -/

/-- With these results of its statements, the program changes the tables in this way. -/
def Under (con : Connection) (results : List Bool) (t u : Mysql.Tables) (m : Prog Unit) : Prop :=
  ∀ w later, w.azsDb.con = some con → w.env.sql = results ++ later → w.tables con = t →
    ∃ next, m w = .ok ⟨⟩ next ∧ next.azsDb.con = some con ∧ next.env.sql = later ∧ next.tables con = u

section Under

variable {pl : Platform} {con : Connection} {results more : List Bool} {t u v : Mysql.Tables}
  {m rest : Prog Unit}

theorem Under.bind (hFirst : Under con results t u m) (hRest : Under con more u v rest) :
    Under con (results ++ more) t v (m >>= fun _ => rest) := by
  intro w later hCon hSql hTables
  rw [List.append_assoc] at hSql
  obtain ⟨middle, hRun, hMiddle, hMiddleSql, hMiddleTables⟩ := hFirst w _ hCon hSql hTables
  obtain ⟨next, hRunRest, hNext⟩ := hRest middle later hMiddle hMiddleSql hMiddleTables
  exact ⟨next, (bind_of_ok hRun).trans hRunRest, hNext⟩

/-- A method whose first statement is refused. -/
theorem under_refused (t : Mysql.Tables) {update : Mysql.Update} (hRefused : ∀ w, Refuses con w →
    m w = .error .sqlException (w.popSql.observed (.update update false))) :
    Under con [false] t t (guarded m ⟨⟩) := by
  intro w later hCon hSql hTables
  have hExecutes : w.executes con = false := by
    rw [World.executes, hSql]
    rfl
  have hTail : w.env.sql.tail = later := by rw [hSql, List.singleton_append, List.tail_cons]
  have hRun := guarded_of_sqlException ⟨⟩ (hRefused w ⟨hCon, hExecutes⟩)
  exact ⟨_, hRun, hCon, hTail, hTables⟩

/-- A loop of such methods. -/
theorem under_forM {α : Type} {body : α → Prog Unit} (hBody : ∀ a, Under con [false] t t (body a))
    (as : List α) : Under con (as.map fun _ => false) t t (as.forM body) := by
  induction as with
  | nil => exact fun w later hCon hSql hTables => ⟨w, rfl, hCon, hSql, hTables⟩
  | cons a as ih => exact (hBody a).bind ih

theorem under_setTovar (pl : Platform) (con : Connection) (t : Mysql.Tables) (tovar : Tovar) :
    Under con [false] t t (setTovar pl tovar) :=
  under_refused t fun _ => executeUpdate_not_executed

theorem under_setTank (pl : Platform) (con : Connection) (t : Mysql.Tables) (tank : Tank) :
    Under con [false] t t (setTank pl tank) :=
  under_refused t fun _ => executeUpdate_not_executed

theorem under_setTrk (pl : Platform) (con : Connection) (t : Mysql.Tables) (trk : Trk) :
    Under con [false] t t (setTrk pl trk) :=
  under_refused (m := trySetTrk pl trk) t fun _ hRefuses =>
    bind_of_error (executeUpdate_not_executed hRefuses)

/-- A product whose statement is executed. -/
theorem under_setTovar_executed {tovar : Tovar} (hSchema : con.schema = true)
    (hStored : storeTovar pl.mysql tovar t = some u) :
    Under con [true] t u (setTovar pl tovar) := by
  intro w later hCon hSql hTables
  have hExecutes : w.executes con = true := by
    rw [World.executes, hSql, hSchema]
    rfl
  have hTail : w.env.sql.tail = later := by rw [hSql, List.singleton_append, List.tail_cons]
  rw [← hTables] at hStored
  exact ⟨_, guarded_of_ok (executeUpdate_executed ⟨hCon, hExecutes⟩ hStored), hCon, hTail,
    tables_stored w con tovar.update u⟩

/-- One product of a list is stored, and the statements of the other ones are refused. -/
theorem under_forM_setTovar {tovar : Tovar} {tovars : List Tovar} (hMem : tovar ∈ tovars)
    (hSchema : con.schema = true) (hStored : storeTovar pl.mysql tovar t = some u) :
    ∃ results, Under con results t u (tovars.forM (setTovar pl)) := by
  induction tovars with
  | nil => cases hMem
  | cons first tovars ih =>
      rcases List.mem_cons.mp hMem with rfl | hLater
      · exact ⟨_, (under_setTovar_executed hSchema hStored).bind
          (under_forM (under_setTovar pl con u) tovars)⟩
      · obtain ⟨results, hRest⟩ := ih hLater
        exact ⟨_, (under_setTovar pl con t first).bind hRest⟩

/-- MySQL may execute the statement of one product alone. -/
theorem SettingsForm.store_one {form : SettingsForm} {tovar : Tovar} (hMem : tovar ∈ form.tovars)
    (hStored : storeTovar pl.mysql tovar t = some u) :
    ∃ results, Under ⟨{}, true⟩ results t u (form.store pl) := by
  obtain ⟨results, hTovars⟩ : ∃ results, Under ⟨{}, true⟩ results t u
      (form.tovars.forM (setTovar pl)) := under_forM_setTovar hMem rfl hStored
  have hTanks := under_forM (under_setTank pl ⟨{}, true⟩ u) form.tanks
  have hTrks := under_forM (under_setTrk pl ⟨{}, true⟩ u) form.trks
  exact ⟨_, hTovars.bind (hTanks.bind hTrks)⟩

end Under

end Server
end AzsServer
