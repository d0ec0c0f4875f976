import AzsServer.Library.Sorting
import AzsServer.Server.References
import AzsServer.Server.SetThenGet

/-!
# What is shown after a deletion

`api_settings_delete` sends a statement for every element of the body, whether there is a row for
it or not, and `api_settings_get` joins the tables anew.  Between the two, exactly what the body
names is gone from the reply, and the rest stays in its order: a pump that is named without
nozzles is gone, although the rows of its nozzles stay; one that is named with some of them loses
these, and one without any nozzle left is not shown.
-/

namespace AzsServer
namespace Server

open Core Library Nlohmann Nlohmann.Json

/-! ## What a reply shows -/

/-- The integer in a member of a reply. -/
def intIn (x : Json) (key : String) : Option Int :=
  match x.field key with
  | some (.int value) => some value
  | _ => none

/-- A nozzle of a reply stays: its pump is not named alone, and it is not named with its pump. -/
def SettingsForm.KeepsNozzle (form : SettingsForm) (pump nozzle : Json) : Prop :=
  ∀ trk ∈ form.trks, intIn pump "id_trk" = some trk.idTrk →
    trk.pists ≠ [] ∧ ∀ pist ∈ trk.pists, intIn nozzle "id_pist" ≠ some pist.idPist

instance (form : SettingsForm) (pump nozzle : Json) : Decidable (form.KeepsNozzle pump nozzle) :=
  inferInstanceAs (Decidable (∀ trk ∈ form.trks, _ → trk.pists ≠ [] ∧ ∀ pist ∈ trk.pists, _))

/-- A pump of a reply with other nozzles. -/
def withPists (pump : Json) (pists : List Json) : Json :=
  match pump with
  | .object members =>
      .object (members.map fun m => if m.1 = ascii "pists" then (m.1, .array pists) else m)
  | other => other

/-- A pump of a reply with the nozzles that stay, if there are any. -/
def SettingsForm.pumpWithout (form : SettingsForm) (pump : Json) : Option Json :=
  let left := (elementsIn pump "pists").filter (form.KeepsNozzle pump ·)
  if left = [] then none else some (withPists pump left)

/-- The value of a reply without what a body names. -/
def SettingsForm.without (form : SettingsForm) (reply : Json) : Json :=
  contextOf
    (arrayMember "tovars" ((elementsIn reply "tovars").filter fun x =>
        ∀ tovar ∈ form.tovars, intIn x "id_tovar" ≠ some tovar.idTovar) ++
      arrayMember "tanks" ((elementsIn reply "tanks").filter fun x =>
        ∀ tank ∈ form.tanks, intIn x "id_tank" ≠ some tank.idTank) ++
      arrayMember "trks" ((elementsIn reply "trks").filterMap form.pumpWithout))

/-- `api_settings_get` comes to a value, and its reply is the text of it. -/
structure RepliesWith (pl : Platform) (w : World) (value : Json) : Prop where
  context : ∃ next, settingsContext pl w = .ok value next
  reply : ∀ text, pl.dump value = some text →
    ∃ next, Admin.apiSettingsGet pl w = .ok ⟨⟩ next ∧ next.response.body = text

/-! ## Pumps and their rows -/

/-- The rows of a pump. -/
def Trk.rows (trk : Trk) : List PistRow :=
  trk.pists.map fun pist => ⟨trk.idTrk, trk.xPos, trk.yPos, trk.scale, pist.idPist, pist.idTank⟩

/-- Rows with the same id have the same position and scale. -/
def PumpsAlike (rows : List PistRow) : Prop :=
  ∀ row ∈ rows, ∀ other ∈ rows, row.idTrk = other.idTrk →
    row.xPos = other.xPos ∧ row.yPos = other.yPos ∧ row.scale = other.scale

/-- No two rows of `com_trk` are about the same pump. -/
def PumpsDistinct (t : Mysql.Tables) : Prop :=
  ∀ com ∈ t.comTrk, ∀ other ∈ t.comTrk, com.idTrk = other.idTrk → com = other

section Rows

variable {tanks : List Tank} {done rows : List PistRow} {s next : TrkLoop} {trks : List Trk}

theorem pumpsAlike_pistRows {t : Mysql.Tables} (hPumps : PumpsDistinct t) (station : Int) :
    PumpsAlike (pistRows station t) := by
  intro row hRow other hOther hId
  obtain ⟨com, hCom, -, _, _, _, rfl⟩ := mem_pistRows.mp hRow
  obtain ⟨same, hSame, -, _, _, _, rfl⟩ := mem_pistRows.mp hOther
  obtain rfl := hPumps com hCom same hSame hId
  exact ⟨rfl, rfl, rfl⟩

/-- The pumps that the loop has built are its rows. -/
theorem LoopOver.flatMap_rows (hLoop : LoopOver tanks done s)
    (hDone : s.trks.flatMap Trk.rows = done) (hAlike : PumpsAlike (done ++ rows))
    (hRun : rows.foldlM (trkLoopStep tanks) s = some next) :
    next.trks.flatMap Trk.rows = done ++ rows := by
  induction rows generalizing done s with
  | nil =>
      obtain rfl : s = next := by simpa using hRun
      rw [hDone, List.append_nil]
  | cons row rows ih =>
      rw [List.foldlM_cons] at hRun
      obtain ⟨middle, hStep, hRest⟩ := Option.bind_eq_some_iff.mp hRun
      have hMiddle : middle.trks.flatMap Trk.rows = done ++ [row] := by
        obtain ⟨init, last, hTrks, hId, -, rfl⟩ | ⟨-, rfl⟩ := hLoop.step_cases hStep
        · -- the last pump has the position of its first row, which is the one of this row
          obtain ⟨first, hFirst, hFirstId, hX, hY, hScale⟩ :=
            (hLoop.built last (by rw [hTrks]; simp)).head
          obtain ⟨hSameX, hSameY, hSameScale⟩ := hAlike first (List.mem_append_left _ hFirst) row
            (by simp) (hFirstId.symm.trans hId)
          rw [hTrks] at hDone
          rw [← hDone]
          simp [Trk.rows, rowPist, hId, hX, hY, hScale, hSameX, hSameY, hSameScale]
        · rw [List.flatMap_append, hDone]
          simp [Trk.rows, rowPist]
      rw [List.append_cons] at hAlike ⊢
      exact ih (hLoop.step hStep) hMiddle hAlike hRest

theorem flatMap_rows_of_loadTrks (hAlike : PumpsAlike rows) (hLoad : loadTrks tanks rows = some trks) :
    trks.flatMap Trk.rows = rows := by
  obtain ⟨s, hRun, rfl⟩ := Option.map_eq_some_iff.mp hLoad
  exact (loopOver_nil tanks).flatMap_rows rfl hAlike hRun

end Rows

/-! ## What a deletion leaves -/

/-- The nozzle of a pump stays. -/
def SettingsForm.Leaves (form : SettingsForm) (idTrk idPist : Int) : Prop :=
  ∀ trk ∈ form.trks, trk.idTrk = idTrk →
    trk.pists ≠ [] ∧ ∀ pist ∈ trk.pists, pist.idPist ≠ idPist

instance (form : SettingsForm) (idTrk idPist : Int) : Decidable (form.Leaves idTrk idPist) :=
  inferInstanceAs (Decidable (∀ trk ∈ form.trks, _ → trk.pists ≠ [] ∧ ∀ pist ∈ trk.pists, _))

/-- A pump with the nozzles that stay, if there are any. -/
def Trk.without (form : SettingsForm) (trk : Trk) : Option Trk :=
  let left := trk.pists.filter fun pist => form.Leaves trk.idTrk pist.idPist
  if left = [] then none else some { trk with pists := left }

section Left

variable {t : Mysql.Tables} {station : Int} {trks rest : List Trk} {form : SettingsForm}

theorem SettingsForm.leaves_iff (row : Mysql.TrkRow) :
    form.Leaves row.idTrk row.idPist ↔ ¬ form.DropsPump row.idTrk ∧ ¬ form.DropsPist row := by
  constructor
  · refine fun hLeaves => ⟨?_, ?_⟩
    · rintro ⟨trk, hTrk, hNone, hId⟩
      exact (hLeaves trk hTrk hId).1 hNone
    · rintro ⟨trk, hTrk, hId, pist, hPist, hSame⟩
      exact (hLeaves trk hTrk hId).2 pist hPist hSame
  · rintro ⟨hPump, hNozzle⟩ trk hTrk hId
    exact ⟨fun hNone => hPump ⟨trk, hTrk, hNone, hId⟩,
      fun pist hPist hSame => hNozzle ⟨trk, hTrk, hId, pist, hPist, hSame⟩⟩

theorem tovarRows_erased :
    tovarRows (form.erased t) = (tovarRows t).filter fun row => ¬ form.DropsTovar row.idTovar := by
  unfold tovarRows
  rw [erased_tovar, filter_mergeSort_by]

theorem tankRows_erased :
    tankRows (form.erased t) = (tankRows t).filter fun row => ¬ form.DropsTank row.idTank := by
  unfold tankRows
  rw [erased_tank, filter_mergeSort_by]

/-- The nozzles that are joined with one row of `com_trk`. -/
theorem joined_erased (rows : List Mysql.TrkRow) (com : Mysql.ComTrkRow) :
    ((rows.filter (·.idTrk = com.idTrk)).map fun row =>
        (⟨com.idTrk, com.xPos, com.yPos, com.scale, row.idPist, row.idTank⟩ : PistRow)).filter
        (fun row => form.Leaves row.idTrk row.idPist) =
      if form.DropsPump com.idTrk then [] else
        ((rows.filter fun row => ¬ form.DropsPist row).filter (·.idTrk = com.idTrk)).map fun row =>
          ⟨com.idTrk, com.xPos, com.yPos, com.scale, row.idPist, row.idTank⟩ := by
  rw [List.filter_map, List.filter_filter]
  split_ifs with hDrops
  · rw [List.map_eq_nil_iff, List.filter_eq_nil_iff]
    intro row _ hBoth
    obtain ⟨hLeaves, hId⟩ := (Bool.and_eq_true _ _).mp hBoth
    have hRow := (form.leaves_iff row).mp (of_decide_eq_true hId ▸ of_decide_eq_true hLeaves)
    exact hRow.1 (of_decide_eq_true hId ▸ hDrops)
  · rw [List.filter_filter]
    congr 1
    refine List.filter_congr fun row _ => ?_
    by_cases hId : row.idTrk = com.idTrk
    · have hLeaves := form.leaves_iff row
      rw [hId] at hLeaves
      simp [hId, hLeaves, hDrops]
    · simp [hId]

/-- The joined rows that are left. -/
theorem pistRows_erased : pistRows station (form.erased t) =
    (pistRows station t).filter fun row => form.Leaves row.idTrk row.idPist := by
  unfold pistRows
  rw [erased_comTrk, erased_trk, filter_mergeSort_by, List.filter_flatMap, List.filter_comm]
  simp only [joined_erased, flatMap_ite_nil]

/-- The rows of a pump that are left. -/
theorem rows_without (trk : Trk) :
    trk.rows.filter (fun row => form.Leaves row.idTrk row.idPist) =
      ((trk.without form).map Trk.rows).getD [] := by
  simp only [Trk.without, Trk.rows, List.filter_map]
  split_ifs with hNone
  · exact List.map_eq_nil_iff.mpr hNone
  · rfl

theorem rows_ne_nil_of_without {trk left : Trk} (hLeft : trk.without form = some left) :
    left.rows ≠ [] ∧ left.idTrk = trk.idTrk := by
  simp only [Trk.without] at hLeft
  split_ifs at hLeft with hNone
  obtain rfl := Option.some.inj hLeft
  exact ⟨fun hNil => hNone (List.map_eq_nil_iff.mp hNil), rfl⟩

theorem rows_ne_nil (hLoad : loadedTrks station t = some trks) : ∀ trk ∈ trks, trk.rows ≠ [] := by
  intro trk hMem hNil
  obtain ⟨s, rfl, hLoop⟩ := loadTrks_spec hLoad
  obtain ⟨first, hFirst, hId, -⟩ := (hLoop.built trk hMem).head
  obtain ⟨pist, hPist, -⟩ :=
    hLoop.full (sortedRows_pistRows station t) trk hMem first hFirst hId.symm
  exact List.ne_nil_of_mem hPist (List.map_eq_nil_iff.mp hNil)

theorem nodup_idTrk (hLoad : loadedTrks station t = some trks) : (trks.map (·.idTrk)).Nodup := by
  obtain ⟨s, rfl, hLoop⟩ := loadTrks_spec hLoad
  exact (hLoop.distinct (sortedRows_pistRows station t)).imp fun hLess => hLess.ne

/-- A pump is shown as its rows say. -/
theorem trkJson_of_rows {trk other : Trk} (hSame : trk.rows = other.rows) (hRows : trk.rows ≠ []) :
    trkJson trk = trkJson other := by
  have hPists : ∀ trk : Trk, trk.pists.map pistJson =
      trk.rows.map fun row => pistJson (rowPist none row) := fun trk => by
    rw [Trk.rows, List.map_map]
    rfl
  have hNonempty : trk.pists ≠ [] := fun hNil => hRows (List.map_eq_nil_iff.mpr hNil)
  have hOther : other.pists ≠ [] := fun hNil => hRows (hSame.trans (List.map_eq_nil_iff.mpr hNil))
  obtain ⟨pist, pists, hPist⟩ := List.exists_cons_of_ne_nil hNonempty
  obtain ⟨first, rest, hFirst⟩ := List.exists_cons_of_ne_nil hOther
  have hHead := hSame
  rw [Trk.rows, Trk.rows, hPist, hFirst, List.map_cons, List.map_cons, List.cons.injEq,
    PistRow.mk.injEq] at hHead
  obtain ⟨⟨hId, hX, hY, hScale, -⟩, -⟩ := hHead
  rw [trkJson, trkJson, trkMembers, trkMembers, if_neg hNonempty, if_neg hOther, hPists trk,
    hPists other, hSame, hId, hX, hY, hScale]

/-- The pumps that are shown behind a deletion are the ones of before with the nozzles that are
left. -/
theorem trkJson_erased (hPumps : PumpsDistinct t) (hLoad : loadedTrks station t = some trks)
    (hRest : loadedTrks station (form.erased t) = some rest) :
    rest.map trkJson = (trks.filterMap (Trk.without form)).map trkJson := by
  have hLeft : PumpsDistinct (form.erased t) := fun com hCom other hOther =>
    hPumps com ((mem_erased_comTrk form t com).mp hCom).1 other
      ((mem_erased_comTrk form t other).mp hOther).1
  -- both are written out as the rows that are left
  have hRows : rest.flatMap Trk.rows = (trks.filterMap (Trk.without form)).flatMap Trk.rows := by
    rw [flatMap_rows_of_loadTrks (pumpsAlike_pistRows hLeft station) hRest, pistRows_erased,
      ← flatMap_rows_of_loadTrks (pumpsAlike_pistRows hPumps station) hLoad]
    exact filter_flatMap_of_cut fun trk _ => rows_without trk
  have hKey : ∀ trk : Trk, ∀ row ∈ trk.rows, row.idTrk = trk.idTrk := by
    intro trk row hMem
    obtain ⟨pist, -, rfl⟩ := List.mem_map.mp hMem
    rfl
  refine map_eq_map_of_flatMap_eq hKey (fun trk other => trkJson_of_rows) (rows_ne_nil hRest) ?_
    (nodup_idTrk hRest) ?_ hRows
  · intro left hMem
    obtain ⟨trk, -, hWithout⟩ := List.mem_filterMap.mp hMem
    exact (rows_ne_nil_of_without hWithout).1
  · refine List.pairwise_map.mpr ((List.pairwise_map.mp (nodup_idTrk hLoad)).filterMap _ ?_)
    intro trk other hApart left hWithout otherLeft hOtherWithout
    rw [(rows_ne_nil_of_without hWithout).2, (rows_ne_nil_of_without hOtherWithout).2]
    exact hApart

/-! ## The values of the replies -/

theorem elementsIn_trkJson (trk : Trk) :
    elementsIn (trkJson trk) "pists" = trk.pists.map pistJson := by
  rw [elementsIn, arrayElements_of_field (field_pists_trkJson trk)]
  rfl

theorem intIn_trkJson (trk : Trk) : intIn (trkJson trk) "id_trk" = some trk.idTrk := by
  rw [intIn, (field_trkJson trk).1]

/-- A pump of a reply loses what the pump itself loses. -/
theorem pumpWithout_trkJson (trk : Trk) :
    form.pumpWithout (trkJson trk) = (trk.without form).map trkJson := by
  have hKeeps : ∀ pist : Pist, form.KeepsNozzle (trkJson trk) (pistJson pist) ↔
      form.Leaves trk.idTrk pist.idPist := by
    intro pist
    have hPist : intIn (pistJson pist) "id_pist" = some pist.idPist := rfl
    simp only [SettingsForm.KeepsNozzle, SettingsForm.Leaves, intIn_trkJson, hPist, ne_eq,
      Option.some.injEq, eq_comm]
  have hLeft : (elementsIn (trkJson trk) "pists").filter (form.KeepsNozzle (trkJson trk) ·) =
      (trk.pists.filter fun pist => form.Leaves trk.idTrk pist.idPist).map pistJson := by
    rw [elementsIn_trkJson, List.filter_map]
    congr 1
    exact List.filter_congr fun pist _ => decide_eq_decide.mpr (hKeeps pist)
  simp only [SettingsForm.pumpWithout, Trk.without, hLeft, List.map_eq_nil_iff]
  split_ifs with hNone
  · rfl
  · have hPists : trk.pists ≠ [] := fun hNil => hNone (by rw [hNil]; rfl)
    rw [Option.map_some, trkJson, trkJson, trkMembers, trkMembers, if_neg hPists, if_neg hNone]
    rfl

/-- The value of a reply behind a deletion. -/
theorem loadedContext_erased (hPumps : PumpsDistinct t) (hLoad : loadedTrks station t = some trks)
    (hRest : loadedTrks station (form.erased t) = some rest) :
    loadedContext (form.erased t) rest = form.without (loadedContext t trks) := by
  obtain ⟨hTovars, hTanks, hTrks⟩ := elementsIn_loadedContext t trks
  have hLeftTovars : (loadedTovars (form.erased t)).map tovarJson =
      ((loadedTovars t).map tovarJson).filter fun x =>
        ∀ tovar ∈ form.tovars, intIn x "id_tovar" ≠ some tovar.idTovar := by
    rw [loadedTovars, loadedTovars, List.map_map, List.map_map, tovarRows_erased, List.filter_map]
    congr 1
    refine List.filter_congr fun row _ => decide_eq_decide.mpr ?_
    have hId : intIn (tovarJson (loadTovarPrice row)) "id_tovar" = some row.idTovar := rfl
    simp only [Function.comp_apply, hId, SettingsForm.DropsTovar, not_exists, not_and, ne_eq,
      Option.some.injEq, eq_comm]
  have hLeftTanks : (loadedTanks (form.erased t)).map tankJson =
      ((loadedTanks t).map tankJson).filter fun x =>
        ∀ tank ∈ form.tanks, intIn x "id_tank" ≠ some tank.idTank := by
    rw [loadedTanks, loadedTanks, List.map_map, List.map_map, tankRows_erased, List.filter_map]
    -- the product of a tank is not shown
    show List.map (tankJson ∘ loadTank) _ = List.map (tankJson ∘ loadTank) _
    congr 1
    refine List.filter_congr fun row _ => decide_eq_decide.mpr ?_
    have hId : intIn (tankJson (loadTank row)) "id_tank" = some row.idTank := rfl
    show ¬ form.DropsTank row.idTank ↔
      ∀ tank ∈ form.tanks, intIn (tankJson (loadTank row)) "id_tank" ≠ some tank.idTank
    simp only [hId, SettingsForm.DropsTank, not_exists, not_and, ne_eq, Option.some.injEq, eq_comm]
  have hLeftTrks : rest.map trkJson = (trks.map trkJson).filterMap form.pumpWithout := by
    rw [trkJson_erased hPumps hLoad hRest, List.filterMap_map, List.map_filterMap]
    exact congrArg (List.filterMap · trks) (funext fun trk => (pumpWithout_trkJson trk).symm)
  rw [SettingsForm.without, hTovars, hTanks, hTrks, loadedContext, hLeftTovars, hLeftTanks,
    hLeftTrks]

theorem loadedSizes_erased : loadedSizes (form.erased t) = loadedSizes t := by
  have hKept : (form.erased t).locConst = t.locConst := by
    unfold SettingsForm.erased
    rw [foldl_of_kept Mysql.Tables.locConst (fun t trk => eraseTrk trk t)
        (eraseTrk_kept _ (fun _ _ => rfl) fun _ _ => rfl),
      foldl_of_kept Mysql.Tables.locConst (fun t tank => eraseTank tank t) (fun _ _ => rfl),
      foldl_of_kept Mysql.Tables.locConst (fun t tovar => eraseTovar tovar t) (fun _ _ => rfl)]
  unfold loadedSizes screenSizeRows
  rw [hKept]

end Left

/-- While MySQL executes every statement, the handler erases its form and answers. -/
theorem apiSettingsDelete_serves {pl : Platform} {con : Connection} {w : World} {json : Json}
    {form : SettingsForm} (req : Request) (hServes : Serves con w)
    (hParse : pl.parse req.body = some json) (hForm : eraseForm json = some form) :
    ∃ next, Admin.apiSettingsDelete pl req w = .ok ⟨⟩ next ∧
      next.response.body = statusText "success" ∧
      next.tables con = form.erased (w.tables con) ∧ next.azsDb = w.azsDb := by
  have hHeader : Serves con w.jsonReply := ⟨hServes.con_eq, hServes.schema, hServes.sql⟩
  obtain ⟨next, hRun, hEnd⟩ :=
    ((form.sends_erase pl con) w.jsonReply hServes.con_eq).1 _ (hHeader.executesNext _) rfl
  refine ⟨next.answered "success", ?_, rfl, hEnd.tables_eq, hEnd.azsDb⟩
  rw [apiSettingsDelete_of_form hParse hForm, bind_of_ok hRun, replyStatus_run]

/-- `api_settings_get` comes to the value of what is in the tables. -/
theorem repliesWith_loadedContext {pl : Platform} {con : Connection} {w : World}
    {sizes : List ScreenSize} {trks : List Trk} (hServes : Serves con w)
    (hSizes : loadedSizes (w.tables con) = some sizes)
    (hLoad : loadedTrks (w.station pl) (w.tables con) = some trks) :
    RepliesWith pl w (loadedContext (w.tables con) trks) := by
  obtain ⟨read, hContext, -⟩ := settingsContext_serves pl hServes hSizes hLoad
  refine ⟨⟨read, hContext⟩, fun text hText => ?_⟩
  obtain ⟨next, -, hRun⟩ := apiSettingsGet_run hServes hSizes hLoad
  rw [hRun, replyJson, hText, bind_of_ok (orThrow_some_run text next)]
  exact ⟨_, rfl, rfl⟩

/-- Only from what is in the tables does it come to a value. -/
theorem RepliesWith.loaded {pl : Platform} {con : Connection} {w : World} {value : Json}
    (hServes : Serves con w) (hReplies : RepliesWith pl w value) :
    ∃ sizes trks, loadedSizes (w.tables con) = some sizes ∧
      loadedTrks (w.station pl) (w.tables con) = some trks ∧
      loadedContext (w.tables con) trks = value := by
  obtain ⟨mid, hContext⟩ := hReplies.context
  have hSome : ¬ (loadedSizes (w.tables con) = none ∨
      loadedTrks (w.station pl) (w.tables con) = none) :=
    fun hNone => settingsContext_ne_ok hServes hNone value mid hContext
  obtain ⟨hSizes, hLoad⟩ := not_or.mp hSome
  obtain ⟨sizes, hSizes⟩ := Option.ne_none_iff_exists'.mp hSizes
  obtain ⟨trks, hLoad⟩ := Option.ne_none_iff_exists'.mp hLoad
  obtain ⟨read, hRun, -⟩ := settingsContext_serves pl hServes hSizes hLoad
  rw [hRun] at hContext
  exact ⟨sizes, trks, hSizes, hLoad, (EStateM.Result.ok.inj hContext).1⟩

/-- Whatever a body names, with ids that are there or not and in any order, the deletion is
answered with "success", and the next `api_settings_get` replies with what it would have replied
before, without the products, tanks and nozzles that are named and without the pumps that are
named alone or have no nozzle left. -/
theorem deleted_then_shown (pl : Platform) (con : Connection) (w : World) (req : Request)
    (json before : Json) (form : SettingsForm) (env : Env) (hServes : Serves con w)
    (hPumps : PumpsDistinct (w.tables con)) (hIds : ∀ com ∈ (w.tables con).comTrk, com.idTrk ≠ -1)
    (hParse : pl.parse req.body = some json) (hForm : eraseForm json = some form)
    (hSql : ∀ executed ∈ env.sql, executed = true) (hBefore : RepliesWith pl w before) :
    ∃ done, Admin.apiSettingsDelete pl req w = .ok ⟨⟩ done ∧
      done.response.body = statusText "success" ∧
      RepliesWith pl (done.received env) (form.without before) := by
  obtain ⟨sizes, trks, hSizes, hLoad, rfl⟩ := hBefore.loaded hServes
  obtain ⟨done, hDone, hSuccess, hTables, hDb⟩ := apiSettingsDelete_serves req hServes hParse hForm
  -- the tables that the next request reads
  have hRows : (done.received env).tables con = form.erased (w.tables con) := hTables
  have hNext : Serves con (done.received env) := by
    refine ⟨?_, hServes.schema, hSql⟩
    show done.azsDb.con = some con
    rw [hDb]
    exact hServes.con_eq
  have hSame : (done.received env).station pl = w.station pl := by
    show pl.mysql.number done.azsDb.azsId = pl.mysql.number w.azsDb.azsId
    rw [hDb]
  have hNone : loadedTrks (w.station pl) (form.erased (w.tables con)) ≠ none :=
    loadTrks_pistRows_ne_none _ _ fun com hCom =>
      hIds com ((mem_erased_comTrk form (w.tables con) com).mp hCom).1
  obtain ⟨rest, hRest⟩ := Option.ne_none_iff_exists'.mp hNone
  rw [← loadedContext_erased hPumps hLoad hRest]
  have hSizesKept : loadedSizes (form.erased (w.tables con)) = loadedSizes (w.tables con) :=
    loadedSizes_erased
  rw [← hSizesKept, ← hRows] at hSizes
  rw [← hSame, ← hRows] at hRest
  have hReplies := repliesWith_loadedContext hNext hSizes hRest
  rw [hRows] at hReplies
  exact ⟨done, hDone, hSuccess, hReplies⟩

/-- Two products, a tank and two pumps with three nozzles. -/
def busyStation : Mysql.Tables :=
  { tovar := [⟨1, 1, ascii "A92", [], [], [], 50, 0⟩, ⟨2, 2, ascii "A95", [], [], [], 52, 0⟩]
    tank := [⟨1, 1, 2, 1000, 500⟩]
    comTrk := [⟨1, 3, 0, 0, 1⟩, ⟨2, 3, 5, 0, 1⟩]
    trk := [⟨1, 1, 1⟩, ⟨1, 2, 1⟩, ⟨2, 1, 1⟩] }

/-- The body that deletes the first product, the first nozzle of the first pump, and the second
pump without its nozzle. -/
def droppedPump : Json :=
  .object
    [(ascii "tovars", .array [.object [(ascii "id_tovar", .int 1)]]),
      (ascii "trks", .array
        [.object [(ascii "id_trk", .int 1),
            (ascii "pists", .array [.object [(ascii "id_pist", .int 1)]])],
          .object [(ascii "id_trk", .int 2)]])]

/-- Its form. -/
def droppedForm : SettingsForm :=
  ⟨[{ idTovar := 1 }], [], [{ idTrk := 1, pists := [{ idPist := 1 }] }, { idTrk := 2 }]⟩

/-- What is left: the second product, the tank and the second nozzle of the first pump. -/
def keptReply : Json :=
  contextOf
    (arrayMember "tovars"
        [tovarJson { idTovar := 2, name := ascii "A95", price := 52, color := ⟨0, 0, 0⟩ }] ++
      arrayMember "tanks" [tankJson ⟨1, 2, 1000, 500, none⟩] ++
      arrayMember "trks" [trkJson ⟨1, 0, 0, 1, [{ idPist := 2, idTank := 1 }]⟩])

/-- The server that gets it. -/
def droppingPlatform : Platform := .exchanging .plain [droppedPump]

/-- The next reply shows what is left. -/
theorem pump_gone_after_deletion :
    ∃ done, Admin.apiSettingsDelete droppingPlatform
          ⟨ascii "/api/settings/delete", [], droppedPump.plainText⟩ (stationWorld busyStation) =
        .ok ⟨⟩ done ∧
      done.response.body = statusText "success" ∧
      RepliesWith droppingPlatform (done.received { now := .epoch }) keptReply := by
  have hRows : pistRows 3 busyStation =
      [⟨1, 0, 0, 1, 1, 1⟩, ⟨1, 0, 0, 1, 2, 1⟩, ⟨2, 5, 0, 1, 1, 1⟩] :=
    List.mergeSort_of_pairwise (by decide)
  have hTovars : tovarRows busyStation = busyStation.tovar :=
    List.mergeSort_of_pairwise (by decide)
  have hTanks : tankRows busyStation = busyStation.tank := List.mergeSort_of_pairwise (by decide)
  have hServes := serves_stationWorld busyStation
  have hStation : (stationWorld busyStation).station droppingPlatform = 3 :=
    station_stationWorld busyStation
  obtain ⟨trks, hLoad⟩ : ∃ trks,
      loadedTrks ((stationWorld busyStation).station droppingPlatform) busyStation = some trks := by
    rw [hStation, loadedTrks, loadedTanks, loadedTovars, hRows, hTanks, hTovars]
    exact ⟨_, rfl⟩
  have hPumps : PumpsDistinct busyStation := by
    unfold PumpsDistinct
    decide
  have hLeft : droppedForm.without (loadedContext busyStation trks) = keptReply := by
    rw [hStation, loadedTrks, loadedTanks, loadedTovars, hRows, hTanks, hTovars] at hLoad
    obtain rfl := Option.some.inj hLoad
    rw [loadedContext, loadedTovars, loadedTanks, loadedTovars, hTovars, hTanks]
    rfl
  rw [← hLeft]
  exact deleted_then_shown droppingPlatform ⟨{}, true⟩ (stationWorld busyStation)
    ⟨ascii "/api/settings/delete", [], droppedPump.plainText⟩ droppedPump _ droppedForm
    { now := .epoch } hServes hPumps (by decide) (Platform.plain.parse_exchanging _) rfl
    (fun executed hMem => by cases hMem)
    (repliesWith_loadedContext hServes (rfl : loadedSizes busyStation = some []) hLoad)

end Server
end AzsServer
