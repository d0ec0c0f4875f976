import AzsServer.Library.References
import AzsServer.Library.Runs
import AzsServer.Server.SettingsAnswers

/-!
# The references between the tables

A nozzle refers to its pump and its tank, a tank to its product.  The handlers of the
settings check none of these references, so a body can leave one without its row.
-/

namespace AzsServer
namespace Server

open Core Library Nlohmann

/-- The nozzles have their pumps and tanks, and the tanks their products. -/
structure Consistent (t : Mysql.Tables) : Prop where
  pumps : Refers Mysql.TrkRow.idTrk t.trk Mysql.ComTrkRow.idTrk t.comTrk
  tanks : Refers Mysql.TrkRow.idTank t.trk Mysql.TankRow.idTank t.tank
  tovars : Refers Mysql.TankRow.idTovar t.tank Mysql.TovarRow.idTovar t.tovar

/-- A row of `tovar`, of `tank` and of `com_trk` with this id is there. -/
def HasTovar (t : Mysql.Tables) (id : Int) : Prop := HasKey Mysql.TovarRow.idTovar t.tovar id

def HasTankRow (t : Mysql.Tables) (id : Int) : Prop := HasKey Mysql.TankRow.idTank t.tank id

def HasPump (t : Mysql.Tables) (id : Int) : Prop := HasKey Mysql.ComTrkRow.idTrk t.comTrk id

/-! ## Storing -/

/-- A call of one of the methods that store. -/
inductive StoreCall where
  | setTovar (tovar : Tovar)
  | setTank (tank : Tank)
  | setTrk (trk : Trk)

/-- The calls of `api_settings_set`, in their order. -/
def SettingsForm.calls (form : SettingsForm) : List StoreCall :=
  form.tovars.map .setTovar ++ (form.tanks.map .setTank ++ form.trks.map .setTrk)

/-- What a call does to the tables. -/
def StoreCall.run (engine : Mysql.Engine) (t : Mysql.Tables) : StoreCall → Option Mysql.Tables
  | .setTovar tovar => storeTovar engine tovar t
  | .setTank tank => some (storeTank tank t)
  | .setTrk trk => some (storeTrk trk t)

/-- The statements of the nozzles of a pump: each one that is new or has a row gets a tank
that is there. -/
def PistsKeep (t : Mysql.Tables) (idTrk maxId : Int) : Int → List Pist → List Mysql.TrkRow → Prop
  | _, [], _ => True
  | n, pist :: rest, rows =>
      if pist.idPist = 0 then
        HasTankRow t pist.idTank ∧
          PistsKeep t idTrk maxId (n + 1) rest (rows ++ [⟨idTrk, maxId + (n + 1), pist.idTank⟩])
      else
        ((∃ row ∈ rows, row.idTrk = idTrk ∧ row.idPist = pist.idPist) →
          HasTankRow t pist.idTank) ∧
            PistsKeep t idTrk maxId n rest (rows.map (storePistRow idTrk pist))

/-- The condition on a call: every reference that it writes finds its row, and the names of
a product do not turn the statement into one that loses a product in use. -/
def StoreCall.KeepsReferences (engine : Mysql.Engine) (t : Mysql.Tables) : StoreCall → Prop
  | .setTovar tovar =>
      tovar.plain = true ∨ ∀ rows, engine.other t tovar.update.sql = some rows →
        ∀ tank ∈ t.tank, HasKey Mysql.TovarRow.idTovar rows tank.idTovar
  | .setTank tank => HasTankRow t tank.idTank → HasTovar t tank.idTovar
  | .setTrk trk =>
      ((∃ pist ∈ trk.pists, pist.idPist = 0) → HasPump t trk.idTrk) ∧
        PistsKeep t trk.idTrk (maxIdPist trk.idTrk t.trk) 0 trk.pists t.trk

section Storing

variable {engine : Mysql.Engine} {t next : Mysql.Tables} {form : SettingsForm}

theorem storeTovarRow_idTovar (tovar : Tovar) (row : Mysql.TovarRow) :
    (storeTovarRow tovar row).idTovar = row.idTovar := by
  unfold storeTovarRow
  split_ifs <;> rfl

theorem storeTankRow_idTank (tank : Tank) (row : Mysql.TankRow) :
    (storeTankRow tank row).idTank = row.idTank := by
  unfold storeTankRow
  split_ifs <;> rfl

theorem storeComTrkRow_idTrk (trk : Trk) (row : Mysql.ComTrkRow) :
    (storeComTrkRow trk row).idTrk = row.idTrk := by
  unfold storeComTrkRow
  split_ifs <;> rfl

theorem storePistRow_idTrk (idTrk : Int) (pist : Pist) (row : Mysql.TrkRow) :
    (storePistRow idTrk pist row).idTrk = row.idTrk := by
  unfold storePistRow
  split_ifs <;> rfl

/-- Calls that MySQL never rejects. -/
theorem runSteps_map_some {α : Type} {call : α → StoreCall} {effect : α → Mysql.Tables → Mysql.Tables}
    (hCall : ∀ t a, (call a).run engine t = some (effect a t)) (as : List α)
    (rest : List StoreCall) (t : Mysql.Tables) :
    runSteps (StoreCall.run engine) t (as.map call ++ rest) =
      runSteps (StoreCall.run engine) (as.foldl (fun t a => effect a t) t) rest := by
  induction as generalizing t with
  | nil => rfl
  | cons a as ih =>
      rw [List.map_cons, List.cons_append, runSteps, hCall]
      exact ih (effect a t)

/-- The calls of a body one by one are its effect. -/
theorem runSteps_calls (engine : Mysql.Engine) (form : SettingsForm) (t : Mysql.Tables) :
    runSteps (StoreCall.run engine) t form.calls = form.stored engine t := by
  have hRest : ∀ t : Mysql.Tables, runSteps (StoreCall.run engine) t
      (form.tanks.map .setTank ++ form.trks.map .setTrk) = some (form.storeRest t) := by
    intro t
    rw [runSteps_map_some (fun _ _ => rfl), ← List.append_nil (form.trks.map _),
      runSteps_map_some (fun _ _ => rfl)]
    rfl
  unfold SettingsForm.calls SettingsForm.stored SettingsForm.storeTovars
  induction form.tovars generalizing t with
  | nil => exact hRest t
  | cons tovar tovars ih =>
      rw [List.foldlM_cons, List.map_cons, List.cons_append, runSteps]
      show (storeTovar engine tovar t).bind _ = ((storeTovar engine tovar t).bind _).map _
      cases storeTovar engine tovar t with
      | none => rfl
      | some next => exact ih next

/-- The nozzles of a pump. -/
theorem pistsKeep_refers {idTrk maxId : Int} {pists : List Pist} (n : Int)
    {rows : List Mysql.TrkRow} (hKeep : PistsKeep t idTrk maxId n pists rows)
    (hPump : (∃ pist ∈ pists, pist.idPist = 0) → HasPump t idTrk)
    (hPumps : Refers Mysql.TrkRow.idTrk rows Mysql.ComTrkRow.idTrk t.comTrk)
    (hTanks : Refers Mysql.TrkRow.idTank rows Mysql.TankRow.idTank t.tank) :
    Refers Mysql.TrkRow.idTrk (storePists idTrk maxId n pists rows) Mysql.ComTrkRow.idTrk
        t.comTrk ∧
      Refers Mysql.TrkRow.idTank (storePists idTrk maxId n pists rows) Mysql.TankRow.idTank
        t.tank := by
  induction pists generalizing n rows with
  | nil => exact ⟨hPumps, hTanks⟩
  | cons pist pists ih =>
      have hRest : (∃ other ∈ pists, other.idPist = 0) → HasPump t idTrk := by
        rintro ⟨other, hMem, hNew⟩
        exact hPump ⟨other, List.mem_cons_of_mem _ hMem, hNew⟩
      unfold PistsKeep at hKeep
      unfold storePists
      by_cases hNew : pist.idPist = 0
      · rw [if_pos hNew] at hKeep ⊢
        obtain ⟨hTank, hKeep⟩ := hKeep
        apply ih (n + 1) hKeep hRest
        · refine hPumps.append fun row hMem => ?_
          rw [List.mem_singleton.mp hMem]
          exact hPump ⟨pist, List.mem_cons_self, hNew⟩
        · refine hTanks.append fun row hMem => ?_
          rw [List.mem_singleton.mp hMem]
          exact hTank
      · rw [if_neg hNew] at hKeep ⊢
        obtain ⟨hTank, hKeep⟩ := hKeep
        apply ih n hKeep hRest
        · exact hPumps.map_left fun row _ => Or.inl (storePistRow_idTrk idTrk pist row)
        · refine hTanks.map_left fun row hMem => ?_
          unfold storePistRow
          split_ifs with hRow
          · exact Or.inr (hTank ⟨row, hMem, hRow⟩)
          · exact Or.inl rfl

/-- A call under the condition keeps the references. -/
theorem Consistent.call {call : StoreCall} (hConsistent : Consistent t)
    (hKeeps : call.KeepsReferences engine t) (hRun : call.run engine t = some next) :
    Consistent next := by
  obtain ⟨hPumps, hTanks, hTovars⟩ := hConsistent
  cases call with
  | setTovar tovar =>
      by_cases hPlain : tovar.plain = true
      · rw [StoreCall.run, storeTovar_of_plain engine t hPlain] at hRun
        obtain rfl := Option.some.inj hRun
        exact ⟨hPumps, hTanks, hTovars.map_right (storeTovarRow_idTovar tovar)⟩
      · rw [StoreCall.run, storeTovar_of_not_plain engine t hPlain] at hRun
        obtain ⟨rows, hOther, rfl⟩ := Option.map_eq_some_iff.mp hRun
        exact ⟨hPumps, hTanks, hKeeps.resolve_left hPlain rows hOther⟩
  | setTank tank =>
      obtain rfl : storeTank tank t = next := Option.some.inj hRun
      refine ⟨hPumps, hTanks.map_right (storeTankRow_idTank tank), hTovars.map_left fun row hMem => ?_⟩
      unfold storeTankRow
      split_ifs with hId
      · exact Or.inr (hKeeps ⟨row, hMem, hId⟩)
      · exact Or.inl rfl
  | setTrk trk =>
      obtain rfl : storeTrk trk t = next := Option.some.inj hRun
      obtain ⟨hPump, hPists⟩ := hKeeps
      obtain ⟨hNewPumps, hNewTanks⟩ := pistsKeep_refers 0 hPists hPump hPumps hTanks
      exact ⟨hNewPumps.map_right (storeComTrkRow_idTrk trk), hNewTanks, hTovars⟩

/-- So does a body all of whose calls meet it. -/
theorem Consistent.stored (hConsistent : Consistent t)
    (hKeeps : StepsMeet (StoreCall.run engine) (StoreCall.KeepsReferences engine) t form.calls)
    (hStored : form.stored engine t = some next) : Consistent next := by
  rw [← runSteps_calls] at hStored
  exact runSteps_invariant (fun _ _ _ hBefore hCall hRun => hBefore.call hCall hRun) hConsistent
    hKeeps hStored

end Storing

/-! ## Deleting -/

/-- The body deletes the product, the tank, the pump without its nozzles, the nozzle. -/
def SettingsForm.DropsTovar (form : SettingsForm) (id : Int) : Prop :=
  ∃ tovar ∈ form.tovars, tovar.idTovar = id

def SettingsForm.DropsTank (form : SettingsForm) (id : Int) : Prop :=
  ∃ tank ∈ form.tanks, tank.idTank = id

def SettingsForm.DropsPump (form : SettingsForm) (id : Int) : Prop :=
  ∃ trk ∈ form.trks, trk.pists = [] ∧ trk.idTrk = id

def SettingsForm.DropsPist (form : SettingsForm) (row : Mysql.TrkRow) : Prop :=
  ∃ trk ∈ form.trks, trk.idTrk = row.idTrk ∧ ∃ pist ∈ trk.pists, pist.idPist = row.idPist

instance (form : SettingsForm) : DecidablePred form.DropsTovar :=
  fun id => inferInstanceAs (Decidable (∃ tovar ∈ form.tovars, tovar.idTovar = id))

instance (form : SettingsForm) : DecidablePred form.DropsTank :=
  fun id => inferInstanceAs (Decidable (∃ tank ∈ form.tanks, tank.idTank = id))

instance (form : SettingsForm) : DecidablePred form.DropsPump :=
  fun id => inferInstanceAs (Decidable (∃ trk ∈ form.trks, trk.pists = [] ∧ trk.idTrk = id))

instance (form : SettingsForm) : DecidablePred form.DropsPist :=
  fun row => inferInstanceAs (Decidable (∃ trk ∈ form.trks, trk.idTrk = row.idTrk ∧
    ∃ pist ∈ trk.pists, pist.idPist = row.idPist))

/-- The condition on a body that deletes: no row that stays refers to a row that goes. -/
structure DropsUnused (form : SettingsForm) (t : Mysql.Tables) : Prop where
  tovars : ∀ tank ∈ t.tank, ¬ form.DropsTank tank.idTank → ¬ form.DropsTovar tank.idTovar
  tanks : ∀ row ∈ t.trk, ¬ form.DropsPist row → ¬ form.DropsTank row.idTank
  pumps : ∀ row ∈ t.trk, ¬ form.DropsPist row → ¬ form.DropsPump row.idTrk

section Deleting

variable {t : Mysql.Tables} {form : SettingsForm}

/-- A part of the tables that the deletion of nozzles leaves alone. -/
theorem eraseTrk_kept {τ : Type} (part : Mysql.Tables → τ)
    (hPump : ∀ t rows, part { t with comTrk := rows } = part t)
    (hPist : ∀ t rows, part { t with trk := rows } = part t) (t : Mysql.Tables) (trk : Trk) :
    part (eraseTrk trk t) = part t := by
  unfold eraseTrk
  split_ifs
  · exact hPump _ _
  · exact foldl_of_kept part (fun t pist => erasePist trk.idTrk pist t)
      (fun t _ => hPist t _) trk.pists t

theorem eraseTrk_comTrk (t : Mysql.Tables) (trk : Trk) :
    (eraseTrk trk t).comTrk =
      t.comTrk.filter fun row => ¬ (trk.pists = [] ∧ trk.idTrk = row.idTrk) := by
  unfold eraseTrk
  by_cases hNone : trk.pists = []
  · rw [if_pos hNone]
    refine List.filter_congr fun row _ => decide_eq_decide.mpr ?_
    rw [ne_eq, eq_comm, and_iff_right hNone]
  · have hKept := foldl_of_kept Mysql.Tables.comTrk (fun t pist => erasePist trk.idTrk pist t)
      (fun _ _ => rfl) trk.pists t
    rw [if_neg hNone, hKept]
    refine (List.filter_eq_self.mpr fun row _ => decide_eq_true ?_).symm
    exact fun hEmpty => hNone hEmpty.1

theorem eraseTrk_trk (t : Mysql.Tables) (trk : Trk) :
    (eraseTrk trk t).trk = t.trk.filter fun row =>
      ¬ (trk.idTrk = row.idTrk ∧ ∃ pist ∈ trk.pists, pist.idPist = row.idPist) := by
  unfold eraseTrk
  by_cases hNone : trk.pists = []
  · rw [if_pos hNone]
    refine (List.filter_eq_self.mpr fun row _ => decide_eq_true ?_).symm
    simp [hNone]
  · have hErase : ∀ (t : Mysql.Tables) (pist : Pist), (erasePist trk.idTrk pist t).trk =
        t.trk.filter fun row => ¬ (row.idTrk = trk.idTrk ∧ row.idPist = pist.idPist) :=
      fun _ _ => rfl
    rw [if_neg hNone, foldl_of_deletion Mysql.Tables.trk _ _ hErase]
    refine List.filter_congr fun row _ => decide_eq_decide.mpr ?_
    constructor
    · rintro hKept ⟨hId, pist, hPist, hSame⟩
      exact hKept pist hPist ⟨hId.symm, hSame.symm⟩
    · exact fun hKept pist hPist hSame => hKept ⟨hSame.1.symm, pist, hPist, hSame.2.symm⟩

/-- The rows that the deletion of a form leaves. -/
theorem erased_tovar (form : SettingsForm) (t : Mysql.Tables) :
    (form.erased t).tovar = t.tovar.filter fun row => ¬ form.DropsTovar row.idTovar := by
  have hErase : ∀ (t : Mysql.Tables) (tovar : Tovar),
      (eraseTovar tovar t).tovar = t.tovar.filter (·.idTovar ≠ tovar.idTovar) := fun _ _ => rfl
  unfold SettingsForm.erased
  rw [foldl_of_kept Mysql.Tables.tovar (fun t trk => eraseTrk trk t)
      (eraseTrk_kept _ (fun _ _ => rfl) fun _ _ => rfl),
    foldl_of_kept Mysql.Tables.tovar (fun t tank => eraseTank tank t) (fun _ _ => rfl),
    foldl_of_deletion Mysql.Tables.tovar _ _ hErase]
  refine List.filter_congr fun row _ => decide_eq_decide.mpr ?_
  simp only [SettingsForm.DropsTovar, not_exists, not_and, ne_eq, eq_comm]

theorem erased_tank (form : SettingsForm) (t : Mysql.Tables) :
    (form.erased t).tank = t.tank.filter fun row => ¬ form.DropsTank row.idTank := by
  have hErase : ∀ (t : Mysql.Tables) (tank : Tank),
      (eraseTank tank t).tank = t.tank.filter (·.idTank ≠ tank.idTank) := fun _ _ => rfl
  unfold SettingsForm.erased
  rw [foldl_of_kept Mysql.Tables.tank (fun t trk => eraseTrk trk t)
      (eraseTrk_kept _ (fun _ _ => rfl) fun _ _ => rfl),
    foldl_of_deletion Mysql.Tables.tank _ _ hErase,
    foldl_of_kept Mysql.Tables.tank (fun t tovar => eraseTovar tovar t) (fun _ _ => rfl)]
  refine List.filter_congr fun row _ => decide_eq_decide.mpr ?_
  simp only [SettingsForm.DropsTank, not_exists, not_and, ne_eq, eq_comm]

theorem erased_comTrk (form : SettingsForm) (t : Mysql.Tables) :
    (form.erased t).comTrk = t.comTrk.filter fun row => ¬ form.DropsPump row.idTrk := by
  unfold SettingsForm.erased
  rw [foldl_of_deletion Mysql.Tables.comTrk _ _ eraseTrk_comTrk,
    foldl_of_kept Mysql.Tables.comTrk (fun t tank => eraseTank tank t) (fun _ _ => rfl),
    foldl_of_kept Mysql.Tables.comTrk (fun t tovar => eraseTovar tovar t) (fun _ _ => rfl)]
  refine List.filter_congr fun row _ => decide_eq_decide.mpr ?_
  simp only [SettingsForm.DropsPump, not_exists, not_and]

theorem erased_trk (form : SettingsForm) (t : Mysql.Tables) :
    (form.erased t).trk = t.trk.filter fun row => ¬ form.DropsPist row := by
  unfold SettingsForm.erased
  rw [foldl_of_deletion Mysql.Tables.trk _ _ eraseTrk_trk,
    foldl_of_kept Mysql.Tables.trk (fun t tank => eraseTank tank t) (fun _ _ => rfl),
    foldl_of_kept Mysql.Tables.trk (fun t tovar => eraseTovar tovar t) (fun _ _ => rfl)]
  refine List.filter_congr fun row _ => decide_eq_decide.mpr ?_
  simp only [SettingsForm.DropsPist, not_exists, not_and]

section Members

variable (form : SettingsForm) (t : Mysql.Tables)

theorem mem_erased_tovar (row : Mysql.TovarRow) :
    row ∈ (form.erased t).tovar ↔ row ∈ t.tovar ∧ ¬ form.DropsTovar row.idTovar := by
  rw [erased_tovar, List.mem_filter, decide_eq_true_eq]

theorem mem_erased_tank (row : Mysql.TankRow) :
    row ∈ (form.erased t).tank ↔ row ∈ t.tank ∧ ¬ form.DropsTank row.idTank := by
  rw [erased_tank, List.mem_filter, decide_eq_true_eq]

theorem mem_erased_comTrk (row : Mysql.ComTrkRow) :
    row ∈ (form.erased t).comTrk ↔ row ∈ t.comTrk ∧ ¬ form.DropsPump row.idTrk := by
  rw [erased_comTrk, List.mem_filter, decide_eq_true_eq]

theorem mem_erased_trk (row : Mysql.TrkRow) :
    row ∈ (form.erased t).trk ↔ row ∈ t.trk ∧ ¬ form.DropsPist row := by
  rw [erased_trk, List.mem_filter, decide_eq_true_eq]

end Members

/-- Deletions keep a consistent database consistent exactly under the condition. -/
theorem Consistent.erased_iff (hConsistent : Consistent t) (form : SettingsForm) :
    Consistent (form.erased t) ↔ DropsUnused form t := by
  obtain ⟨hPumps, hTanks, hTovars⟩ := hConsistent
  have hPists : ∀ row ∈ (form.erased t).trk, row ∈ t.trk :=
    fun row hMem => ((mem_erased_trk form t row).mp hMem).1
  have hStay : ∀ row ∈ (form.erased t).tank, row ∈ t.tank :=
    fun row hMem => ((mem_erased_tank form t row).mp hMem).1
  have hPumpsIff := refers_of_deletion_iff hPists (mem_erased_comTrk form t) hPumps
  have hTanksIff := refers_of_deletion_iff hPists (mem_erased_tank form t) hTanks
  have hTovarsIff := refers_of_deletion_iff hStay (mem_erased_tovar form t) hTovars
  simp only [mem_erased_trk, mem_erased_tank, and_imp] at hPumpsIff hTanksIff hTovarsIff
  constructor
  · rintro ⟨hPumpsKept, hTanksKept, hTovarsKept⟩
    exact ⟨hTovarsIff.mp hTovarsKept, hTanksIff.mp hTanksKept, hPumpsIff.mp hPumpsKept⟩
  · rintro ⟨hTovarsKept, hTanksKept, hPumpsKept⟩
    exact ⟨hPumpsIff.mpr hPumpsKept, hTanksIff.mpr hTanksKept, hTovarsIff.mpr hTovarsKept⟩

end Deleting

/-! ## Requests -/

/-- The requests that change the settings. -/
inductive SettingsEvent where
  | set (req : Request) (env : Env)
  | delete (req : Request) (env : Env)
  | trkSave (req : Request) (env : Env)

/-- What the environment delivers to the request. -/
def SettingsEvent.env : SettingsEvent → Env
  | .set _ env => env
  | .delete _ env => env
  | .trkSave _ env => env

/-- The handler of the request. -/
def SettingsEvent.handler (pl : Platform) : SettingsEvent → Prog Unit
  | .set req _ => Admin.apiSettingsSet pl req
  | .delete req _ => Admin.apiSettingsDelete pl req
  | .trkSave req _ => Admin.apiTrkSave pl req

/-- The server handles one of these requests. -/
def settingsStep (pl : Platform) (w : World) (e : SettingsEvent) : Option World :=
  some (endState (e.handler pl) (w.under e.env))

/-- Every statement of the request is executed. -/
def StatementsExecuted (pl : Platform) (w : World) (e : SettingsEvent) : Prop :=
  ∀ line ∈ (endState (e.handler pl) (w.under e.env)).linesSince w, line.Succeeded

/-- The effect of a body, if it asks for something. -/
def effectOf {α : Type} (form : Option α) (effect : α → Mysql.Tables → Option Mysql.Tables)
    (t : Mysql.Tables) : Option Mysql.Tables :=
  match form with
  | some form => effect form t
  | none => some t

/-- What a request does to the tables when all its statements are executed. -/
def SettingsEvent.effect (pl : Platform) : SettingsEvent → Mysql.Tables → Option Mysql.Tables
  | .set req _ => effectOf ((pl.parse req.body).bind setForm) fun form => form.stored pl.mysql
  | .delete req _ =>
      effectOf ((pl.parse req.body).bind eraseForm) fun form t => some (form.erased t)
  | .trkSave req _ =>
      effectOf ((convertLoaded pl.floatText req.body).bind (trkSaveForm pl)) fun form =>
        savePositions form.2.2 form.1 form.2.1 pl.mysql

/-- The condition on a request: what it stores refers to rows that are there, what it
deletes is not in use. -/
def SettingsEvent.KeepsReferences (pl : Platform) (con : Connection) (w : World) :
    SettingsEvent → Prop
  | .set req _ => ∀ form, (pl.parse req.body).bind setForm = some form →
      StepsMeet (StoreCall.run pl.mysql) (StoreCall.KeepsReferences pl.mysql) (w.tables con)
        form.calls
  | .delete req _ => ∀ form, (pl.parse req.body).bind eraseForm = some form →
      DropsUnused form (w.tables con)
  | .trkSave _ _ => True

section Requests

variable {pl : Platform} {con : Connection} {w next : World} {n : Nat} {e : SettingsEvent}

/-- The end of a request: the connection stays, and if every statement is executed the
tables are what the effect says. -/
structure EndsWith (con : Connection) (effect : Mysql.Tables → Option Mysql.Tables)
    (w next : World) : Prop where
  con_eq : next.azsDb.con = some con
  tables : (∀ line ∈ next.linesSince w, line.Succeeded) →
    effect (w.tables con) = some (next.tables con)

theorem Rejected.endsWith {m : Prog Unit} (hRejected : Rejected w (m w))
    (hCon : w.azsDb.con = some con) : EndsWith con some w (endState m w) := by
  obtain ⟨next, hEnds, hDb, hMysql, -⟩ := hRejected.ends
  have hEnd : endState m w = next := by
    rcases hEnds with hError | ⟨hOk, -⟩
    · rw [endState, hError]
    · rw [endState, hOk]
  rw [hEnd]
  refine ⟨by rw [hDb, hCon], fun _ => ?_⟩
  rw [World.tables, World.tables, hMysql]

/-- A handler that ends behind its statements without another change. -/
theorem Sends.endsWith {effect : Mysql.Tables → Option Mysql.Tables} {m rest : Prog Unit}
    (hSends : Sends con n effect m) (hCon : w.azsDb.con = some con)
    (hRest : ∀ w, (endState rest w).azsDb = w.azsDb ∧ (endState rest w).mysql = w.mysql ∧
      (endState rest w).log = w.log) :
    EndsWith con effect w (endState (m >>= fun _ => rest) w.jsonReply) := by
  obtain ⟨hDone, hFailed⟩ := hSends w.jsonReply hCon
  by_cases hThrough : w.ExecutesNext con n ∧ effect (w.tables con) ≠ none
  · obtain ⟨t, hEffect⟩ := Option.ne_none_iff_exists'.mp hThrough.2
    obtain ⟨next, hRun, hStored⟩ := hDone t hThrough.1 hEffect
    obtain ⟨hDb, hMysql, -⟩ := hRest next
    rw [endState_bind_of_ok hRun]
    refine ⟨by rw [hDb, hStored.con_eq hCon], fun _ => ?_⟩
    rw [hEffect, ← hStored.tables_eq, World.tables, World.tables, hMysql]
  · obtain ⟨next, hRun, hSince, -⟩ := hFailed hThrough
    obtain ⟨hDb, -, hLog⟩ := hRest next
    obtain ⟨line, hMem, hNot⟩ := hSince.failed
    rw [endState_bind_of_ok hRun]
    refine ⟨by rw [hDb, hSince.con]; exact hCon, fun hAll => absurd (hAll line ?_) hNot⟩
    rw [World.linesSince, hLog]
    exact hMem

theorem replyStatus_rest (status : String) (w : World) :
    (endState (replyStatus status) w).azsDb = w.azsDb ∧
      (endState (replyStatus status) w).mysql = w.mysql ∧
      (endState (replyStatus status) w).log = w.log := ⟨rfl, rfl, rfl⟩

theorem endsWith_apiSettingsSet (req : Request) (hCon : w.azsDb.con = some con) :
    EndsWith con
      (effectOf ((pl.parse req.body).bind setForm) fun form => form.stored pl.mysql)
      w (endState (Admin.apiSettingsSet pl req) w) := by
  cases hParse : pl.parse req.body with
  | none => exact (apiSettingsSet_of_parse_none hParse).endsWith hCon
  | some json =>
      rw [Option.bind_some]
      cases hForm : setForm json with
      | none => exact (apiSettingsSet_of_form_none hParse hForm).endsWith hCon
      | some form =>
          have hEnd : endState (Admin.apiSettingsSet pl req) w =
              endState (form.store pl >>= fun _ => replyStatus "success") w.jsonReply := by
            rw [endState, apiSettingsSet_of_form hParse hForm, endState]
          rw [hEnd]
          exact (form.sends_store pl con).endsWith hCon (replyStatus_rest "success")

theorem endsWith_apiSettingsDelete (req : Request) (hCon : w.azsDb.con = some con) :
    EndsWith con
      (effectOf ((pl.parse req.body).bind eraseForm) fun form t => some (form.erased t))
      w (endState (Admin.apiSettingsDelete pl req) w) := by
  cases hParse : pl.parse req.body with
  | none => exact (apiSettingsDelete_of_parse_none hParse).endsWith hCon
  | some json =>
      rw [Option.bind_some]
      cases hForm : eraseForm json with
      | none => exact (apiSettingsDelete_of_form_none hParse hForm).endsWith hCon
      | some form =>
          have hEnd : endState (Admin.apiSettingsDelete pl req) w =
              endState (form.erase pl >>= fun _ => replyStatus "success") w.jsonReply := by
            rw [endState, apiSettingsDelete_of_form hParse hForm, endState]
          rw [hEnd]
          exact (form.sends_erase pl con).endsWith hCon (replyStatus_rest "success")

theorem endsWith_apiTrkSave (req : Request) (hCon : w.azsDb.con = some con) :
    EndsWith con
      (effectOf ((convertLoaded pl.floatText req.body).bind (trkSaveForm pl)) fun form =>
        savePositions form.2.2 form.1 form.2.1 pl.mysql)
      w (endState (Admin.apiTrkSave pl req) w) := by
  have hThrow : Rejected w (.error .stdException w.jsonReply) := rejected_throw w
  cases hJson : convertLoaded pl.floatText req.body with
  | none =>
      apply Rejected.endsWith _ hCon
      rw [Admin.apiTrkSave, bind_of_ok (jsonHeader_run w), hJson, bind_of_error (orThrow_none_run _)]
      exact hThrow
  | some json =>
      rw [Option.bind_some]
      cases hForm : trkSaveForm pl json with
      | none =>
          apply Rejected.endsWith _ hCon
          rw [Admin.apiTrkSave, bind_of_ok (jsonHeader_run w), hJson,
            bind_of_ok (orThrow_some_run json _), hForm, bind_of_error (orThrow_none_run _)]
          exact hThrow
      | some form =>
          have hRun : Admin.apiTrkSave pl req w =
              (saveTrks pl form.2.2 form.1 form.2.1 >>= fun _ => isConnect >>= fun connected =>
                if connected = false then replyStatus "not" else replyStatus "yes") w.jsonReply := by
            rw [Admin.apiTrkSave, bind_of_ok (jsonHeader_run w), hJson,
              bind_of_ok (orThrow_some_run json _), hForm, bind_of_ok (orThrow_some_run form _)]
          have hEnd : endState (Admin.apiTrkSave pl req) w =
              endState (saveTrks pl form.2.2 form.1 form.2.1 >>= fun _ => isConnect >>=
                fun connected => if connected = false then replyStatus "not"
                  else replyStatus "yes") w.jsonReply := by
            rw [endState, hRun, endState]
          rw [hEnd]
          refine (sends_saveTrks pl con form.2.2 form.1 form.2.1).endsWith hCon fun after => ?_
          rw [endState_bind_of_ok (isConnect_run after), endState, ite_run]
          split_ifs
          · exact replyStatus_rest "not" after
          · exact replyStatus_rest "yes" after

theorem SettingsEvent.endsWith (pl : Platform) (e : SettingsEvent) (hCon : w.azsDb.con = some con) :
    EndsWith con (e.effect pl) w (endState (e.handler pl) w) := by
  cases e with
  | set req env => exact endsWith_apiSettingsSet req hCon
  | delete req env => exact endsWith_apiSettingsDelete req hCon
  | trkSave req env => exact endsWith_apiTrkSave req hCon

/-- The positions of the pumps are no references. -/
theorem Consistent.trkPositions {engine : Mysql.Engine} (trks : List Trk) {t u : Mysql.Tables}
    (hConsistent : Consistent t)
    (hRun : trks.foldlM (fun t trk => (Mysql.Update.trkPosition trk.scale trk.xPos trk.yPos
      trk.idTrk).run engine t) t = some u) : Consistent u := by
  induction trks generalizing t with
  | nil =>
      obtain rfl : t = u := by simpa using hRun
      exact hConsistent
  | cons trk trks ih =>
      rw [List.foldlM_cons] at hRun
      obtain ⟨middle, hStep, hRest⟩ := Option.bind_eq_some_iff.mp hRun
      obtain rfl := Option.some.inj hStep
      refine ih ?_ hRest
      refine ⟨hConsistent.pumps.map_right fun row => ?_, hConsistent.tanks, hConsistent.tovars⟩
      split_ifs <;> rfl

theorem Consistent.savePositions {t u : Mysql.Tables} {engine : Mysql.Engine} {trks : List Trk}
    {width height : Int} (hConsistent : Consistent t)
    (hRun : Server.savePositions trks width height engine t = some u) : Consistent u := by
  obtain ⟨middle, hScreen, hRest⟩ := Option.bind_eq_some_iff.mp hRun
  obtain rfl := Option.some.inj hScreen
  refine Consistent.trkPositions trks ?_ hRest
  exact ⟨hConsistent.pumps, hConsistent.tanks, hConsistent.tovars⟩

theorem Consistent.effectOf {α : Type} {form : Option α} {t u : Mysql.Tables}
    {effect : α → Mysql.Tables → Option Mysql.Tables} (hConsistent : Consistent t)
    (hForm : ∀ value, form = some value → effect value t = some u → Consistent u)
    (hEffect : Server.effectOf form effect t = some u) : Consistent u := by
  cases form with
  | some value => exact hForm value rfl hEffect
  | none =>
      obtain rfl : t = u := Option.some.inj hEffect
      exact hConsistent

/-- A request under the condition. -/
theorem Consistent.effect {u : Mysql.Tables} (hConsistent : Consistent (w.tables con))
    (hKeeps : e.KeepsReferences pl con w) (hEffect : e.effect pl (w.tables con) = some u) :
    Consistent u := by
  cases e with
  | set req env =>
      have hBody : Server.effectOf ((pl.parse req.body).bind setForm)
          (fun form => form.stored pl.mysql) (w.tables con) = some u := hEffect
      exact hConsistent.effectOf (fun form hForm => hConsistent.stored (hKeeps form hForm)) hBody
  | delete req env =>
      have hBody : Server.effectOf ((pl.parse req.body).bind eraseForm)
          (fun form t => some (form.erased t)) (w.tables con) = some u := hEffect
      refine hConsistent.effectOf (fun form hForm hErased => ?_) hBody
      obtain rfl := Option.some.inj hErased
      exact (hConsistent.erased_iff form).mpr (hKeeps form hForm)
  | trkSave req env =>
      have hBody : Server.effectOf ((convertLoaded pl.floatText req.body).bind (trkSaveForm pl))
          (fun form => Server.savePositions form.2.2 form.1 form.2.1 pl.mysql) (w.tables con) =
            some u :=
        hEffect
      exact hConsistent.effectOf (fun form _ => hConsistent.savePositions) hBody

/-- Over every run of requests that change the settings, with every statement executed, the
database stays consistent if what is stored refers to rows that are there and what is
deleted is not in use. -/
theorem references_kept (pl : Platform) (con : Connection) (start s : World)
    (events : List SettingsEvent) (hCon : start.azsDb.con = some con)
    (hConsistent : Consistent (start.tables con))
    (hExecuted : StepsMeet (settingsStep pl) (StatementsExecuted pl) start events)
    (hKeeps : StepsMeet (settingsStep pl) (fun w e => e.KeepsReferences pl con w) start events)
    (hRun : runSteps (settingsStep pl) start events = some s) : Consistent (s.tables con) := by
  have hInv : s.azsDb.con = some con ∧ Consistent (s.tables con) := by
    refine @runSteps_invariant _ _ _ _ (fun w => w.azsDb.con = some con ∧ Consistent (w.tables con))
      (fun w e next hBefore hCond hStep => ?_) start s events ⟨hCon, hConsistent⟩
      (stepsMeet_and hExecuted hKeeps) hRun
    obtain rfl := Option.some.inj hStep
    have hUnder : (w.under e.env).azsDb.con = some con := hBefore.1
    obtain ⟨hEndCon, hTables⟩ := e.endsWith pl hUnder
    exact ⟨hEndCon, hBefore.2.effect hCond.2 (hTables hCond.1)⟩
  exact hInv.2

end Requests

/-! ## A product in use -/

instance (t : Mysql.Tables) : Decidable (Consistent t) :=
  decidable_of_iff
    (Refers Mysql.TrkRow.idTrk t.trk Mysql.ComTrkRow.idTrk t.comTrk ∧
      Refers Mysql.TrkRow.idTank t.trk Mysql.TankRow.idTank t.tank ∧
      Refers Mysql.TankRow.idTovar t.tank Mysql.TovarRow.idTovar t.tovar)
    ⟨fun ⟨hPumps, hTanks, hTovars⟩ => ⟨hPumps, hTanks, hTovars⟩,
      fun ⟨hPumps, hTanks, hTovars⟩ => ⟨hPumps, hTanks, hTovars⟩⟩

instance (pl : Platform) (w : World) (e : SettingsEvent) : Decidable (StatementsExecuted pl w e) :=
  inferInstanceAs (Decidable
    (∀ line ∈ (endState (e.handler pl) (w.under e.env)).linesSince w, line.Succeeded))

instance decidablePistsKeep (t : Mysql.Tables) (idTrk maxId : Int) :
    ∀ (n : Int) (pists : List Pist) (rows : List Mysql.TrkRow),
      Decidable (PistsKeep t idTrk maxId n pists rows)
  | _, [], _ => isTrue trivial
  | n, pist :: rest, rows =>
      if hZero : pist.idPist = 0 then
        have := decidablePistsKeep t idTrk maxId (n + 1) rest
          (rows ++ [⟨idTrk, maxId + (n + 1), pist.idTank⟩])
        decidable_of_iff (HasKey Mysql.TankRow.idTank t.tank pist.idTank ∧ _)
          (by rw [PistsKeep, if_pos hZero]; rfl)
      else
        have := decidablePistsKeep t idTrk maxId n rest (rows.map (storePistRow idTrk pist))
        decidable_of_iff (((∃ row ∈ rows, row.idTrk = idTrk ∧ row.idPist = pist.idPist) →
          HasKey Mysql.TankRow.idTank t.tank pist.idTank) ∧ _)
          (by rw [PistsKeep, if_neg hZero]; rfl)

instance (engine : Mysql.Engine) (t : Mysql.Tables) (call : StoreCall) :
    Decidable (call.KeepsReferences engine t) :=
  match call with
  | .setTovar tovar => inferInstanceAs (Decidable (tovar.plain = true ∨
      ∀ rows ∈ engine.other t tovar.update.sql, ∀ tank ∈ t.tank, HasKey _ rows _))
  | .setTank tank => inferInstanceAs (Decidable (HasKey _ t.tank tank.idTank → HasKey _ t.tovar _))
  | .setTrk trk => inferInstanceAs (Decidable
      (((∃ pist ∈ trk.pists, pist.idPist = 0) → HasKey _ t.comTrk trk.idTrk) ∧ PistsKeep _ _ _ _ _ _))

instance (form : SettingsForm) (t : Mysql.Tables) : Decidable (DropsUnused form t) :=
  decidable_of_iff
    ((∀ tank ∈ t.tank, ¬ form.DropsTank tank.idTank → ¬ form.DropsTovar tank.idTovar) ∧
      (∀ row ∈ t.trk, ¬ form.DropsPist row → ¬ form.DropsTank row.idTank) ∧
      ∀ row ∈ t.trk, ¬ form.DropsPist row → ¬ form.DropsPump row.idTrk)
    ⟨fun ⟨hTovars, hTanks, hPumps⟩ => ⟨hTovars, hTanks, hPumps⟩,
      fun ⟨hTovars, hTanks, hPumps⟩ => ⟨hTovars, hTanks, hPumps⟩⟩

instance (pl : Platform) (con : Connection) (w : World) (e : SettingsEvent) :
    Decidable (e.KeepsReferences pl con w) :=
  match e with
  | .set req _ => inferInstanceAs (Decidable
      (∀ form ∈ (pl.parse req.body).bind setForm, StepsMeet _ _ (w.tables con) form.calls))
  | .delete req _ => inferInstanceAs (Decidable
      (∀ form ∈ (pl.parse req.body).bind eraseForm, DropsUnused form (w.tables con)))
  | .trkSave _ _ => isTrue trivial

/-- A pump with one nozzle, its tank and its product. -/
def onePump : Mysql.Tables :=
  { tovar := [⟨1, 1, ascii "A95", [], [], [], 52, 0⟩]
    tank := [⟨1, 1, 1, 1000, 500⟩]
    comTrk := [⟨1, 3, 0, 0, 1⟩]
    trk := [⟨1, 1, 1⟩] }

/-- The body that deletes the product. -/
def droppedProduct : Json :=
  .object [(ascii "tovars", .array [.object [(ascii "id_tovar", .int 1)]])]

/-- The request with it. -/
def dropProduct : SettingsEvent :=
  .delete { url := ascii "/api/settings/delete", body := droppedProduct.plainText } { now := .epoch }

/-- The answer is "success" and every statement has been executed, but the tank has lost its
product. -/
theorem product_lost_by_delete :
    Consistent onePump ∧
      StatementsExecuted (.exchanging .plain [droppedProduct]) (stationWorld onePump) dropProduct ∧
      ∃ next, settingsStep (.exchanging .plain [droppedProduct]) (stationWorld onePump) dropProduct =
          some next ∧
        next.response.body = statusText "success" ∧ ¬ Consistent (next.tables ⟨{}, true⟩) :=
  ⟨by decide, by decide +kernel, _, rfl, by decide +kernel, by decide +kernel⟩

/-- A product, its tank, and a pump with its nozzle and a new one. -/
def postedPump : Json :=
  .object
    [(ascii "tovars", .array [tovarJson
        { idTovar := 1, price := 60, name := ascii "A95", nameP := [], namePF := [], namePV := [] }]),
      (ascii "tanks", .array [tankJson ⟨1, 1, 900, 400, none⟩]),
      (ascii "trks", .array [trkJson ⟨1, 5, 5, 1, [⟨1, 1, none⟩, ⟨0, 1, none⟩]⟩])]

/-- The old nozzle. -/
def droppedNozzle : Json :=
  .object [(ascii "trks", .array [.object [(ascii "id_trk", .int 1),
    (ascii "pists", .array [.object [(ascii "id_pist", .int 1)]])]])]

/-- The first body is posted, and the second one deletes. -/
def pumpEvents : List SettingsEvent :=
  [.set { url := ascii "/api/settings/set", body := postedPump.plainText } { now := .epoch },
    .delete { url := ascii "/api/settings/delete", body := droppedNozzle.plainText }
      { now := .epoch }]

/-- What is stored refers to rows that are there, and the new nozzle keeps its tank. -/
theorem references_kept_by_update :
    ∃ s, runSteps (settingsStep (.exchanging .plain [postedPump, droppedNozzle]))
        (stationWorld onePump) pumpEvents = some s ∧
      Consistent (s.tables ⟨{}, true⟩) ∧ (s.tables ⟨{}, true⟩).trk = [⟨1, 2, 1⟩] := by
  have hSome : ((runSteps (settingsStep (.exchanging .plain [postedPump, droppedNozzle]))
      (stationWorld onePump) pumpEvents).map fun s => (s.tables ⟨{}, true⟩).trk) =
    some [⟨1, 2, 1⟩] := by decide +kernel
  obtain ⟨s, hRun, hRows⟩ := Option.map_eq_some_iff.mp hSome
  refine ⟨s, hRun, ?_, hRows⟩
  exact references_kept (.exchanging .plain [postedPump, droppedNozzle]) ⟨{}, true⟩
    (stationWorld onePump) s pumpEvents rfl (by decide) (by decide +kernel) (by decide +kernel) hRun

end Server
end AzsServer
