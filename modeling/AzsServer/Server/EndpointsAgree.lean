import AzsServer.Library.Runs
import AzsServer.Server.Clients
import AzsServer.Server.Loading

/-!
# The endpoints of single tables

`api_settings_get` replies with products, tanks and pumps together, three other endpoints
with one of them each.  Every endpoint has a reader and a JSON builder of its own.
`get_Tovars` does not read the price.
-/

namespace AzsServer
namespace Server

open Core Library Nlohmann

/-! ## The values of the replies -/

/-- The value that `api_settings_get` dumps. -/
def settingsContext (pl : Platform) : Prog Json := do
  let all ← getTrksWithAll pl
  return contextOf
    (arrayMember "tovars" (all.tovars.map tovarJson) ++
      arrayMember "tanks" (all.tanks.map tankJson) ++
      arrayMember "trks" (all.trks.map trkJson))

/-- The value that `api_settings_tovars_get` dumps. -/
def tovarsContext : Prog Json := do
  let tovars ← getTovars
  return contextOf (arrayMember "tovars" (tovars.map tovarJson))

/-- The value that `api_settings_tanks_get` dumps. -/
def tanksContext : Prog Json := do
  let tanks ← getTanks
  return contextOf (arrayMember "tanks" (tanks.map tankJson))

/-- The value that `api_settings_trks_get` dumps. -/
def trksContext (pl : Platform) : Prog Json := do
  let trks ← getTrks pl
  return contextOf (arrayMember "trks" (trks.map fun trk => .object (trkMembers trk)))

theorem apiSettingsGet_eq (pl : Platform) :
    Admin.apiSettingsGet pl = (jsonHeader >>= fun _ => settingsContext pl >>= replyJson pl) := by
  simp only [Admin.apiSettingsGet, settingsContext, bind_assoc, pure_bind]

theorem apiSettingsTovarsGet_eq (pl : Platform) :
    Admin.apiSettingsTovarsGet pl = (jsonHeader >>= fun _ => tovarsContext >>= replyJson pl) := by
  simp only [Admin.apiSettingsTovarsGet, tovarsContext, bind_assoc, pure_bind]

theorem apiSettingsTanksGet_eq (pl : Platform) :
    Admin.apiSettingsTanksGet pl = (jsonHeader >>= fun _ => tanksContext >>= replyJson pl) := by
  simp only [Admin.apiSettingsTanksGet, tanksContext, bind_assoc, pure_bind]

theorem apiSettingsTrksGet_eq (pl : Platform) :
    Admin.apiSettingsTrksGet pl = (jsonHeader >>= fun _ => trksContext pl >>= replyJson pl) := by
  simp only [Admin.apiSettingsTrksGet, trksContext, bind_assoc, pure_bind]

/-- The members `id_trk` and `pists` of the pumps in a reply. -/
def trkParts (ctx : Json) : List (Option Json × Option Json) :=
  (((ctx.field "trks").bind Json.elements?).getD []).map fun trk =>
    (trk.field "id_trk", trk.field "pists")

/-- Whenever both endpoints come to their replies, the arrays of the single tables are those
of `api_settings_get`. -/
structure EndpointsAgree (pl : Platform) (w : World) : Prop where
  tovars : ∀ all single after other, settingsContext pl w = .ok all after →
    tovarsContext w = .ok single other → single.field "tovars" = all.field "tovars"
  tanks : ∀ all single after other, settingsContext pl w = .ok all after →
    tanksContext w = .ok single other → single.field "tanks" = all.field "tanks"
  trks : ∀ all single after other, settingsContext pl w = .ok all after →
    trksContext pl w = .ok single other → trkParts single = trkParts all

/-! ## Arrays in a context -/

/-- The value of a member that appears with its first element. -/
def arrayOf (values : List Json) : Json := if values = [] then .null else .array values

section Contexts

variable {key other : String} {values : List Json} {members rest : List (Bytes × Json)}

theorem field_contextOf (members : List (Bytes × Json)) (key : String) :
    (contextOf members).field key =
      some (((members.find? fun m => m.1 = ascii key).map (·.2)).getD .null) := by
  unfold contextOf
  split_ifs with hNone
  · rw [hNone]
    rfl
  · rfl

theorem find?_arrayMember (key : String) (values : List Json) :
    (arrayMember key values).find? (fun m => m.1 = ascii key) =
      if values = [] then none else some (ascii key, .array values) := by
  unfold arrayMember
  split_ifs
  · rfl
  · exact List.find?_cons_of_pos (decide_eq_true rfl)

theorem find?_arrayMember_of_ne (values : List Json) (hNe : ascii other ≠ ascii key) :
    (arrayMember other values).find? (fun m => m.1 = ascii key) = none := by
  unfold arrayMember
  split_ifs
  · rfl
  · exact List.find?_cons_of_neg fun hSame => hNe (of_decide_eq_true hSame)

/-- The first member with a key decides. -/
theorem field_arrayMember (key : String) (values : List Json)
    (hRest : rest.find? (fun m => m.1 = ascii key) = none) :
    (contextOf (arrayMember key values ++ rest)).field key = some (arrayOf values) := by
  rw [field_contextOf, List.find?_append, find?_arrayMember, hRest, arrayOf]
  split_ifs <;> rfl

theorem field_of_arrayMember_ne (values : List Json) (hNe : ascii other ≠ ascii key) :
    (contextOf (arrayMember other values ++ rest)).field key = (contextOf rest).field key := by
  rw [field_contextOf, field_contextOf, List.find?_append, find?_arrayMember_of_ne values hNe]
  rfl

theorem arrayOf_map_inj {α : Type} {rows : List α} {f g : α → Json} :
    arrayOf (rows.map f) = arrayOf (rows.map g) ↔ ∀ row ∈ rows, f row = g row := by
  unfold arrayOf
  cases rows with
  | nil => simp
  | cons row rows =>
      have hNe : ∀ h : α → Json, (row :: rows).map h ≠ [] := fun _ => List.cons_ne_nil _ _
      rw [if_neg (hNe f), if_neg (hNe g)]
      constructor
      · intro hSame
        exact List.map_inj_left.mp (Json.array.inj hSame)
      · exact fun hAll => congrArg Json.array (List.map_inj_left.mpr hAll)

/-- The three arrays of `api_settings_get`. -/
theorem field_settings (tovars tanks trks : List Json) :
    let ctx := contextOf (arrayMember "tovars" tovars ++ arrayMember "tanks" tanks ++
      arrayMember "trks" trks)
    ctx.field "tovars" = some (arrayOf tovars) ∧ ctx.field "tanks" = some (arrayOf tanks) ∧
      ctx.field "trks" = some (arrayOf trks) := by
  have hTovarsTanks : ascii "tovars" ≠ ascii "tanks" := by decide
  have hTovarsTrks : ascii "tovars" ≠ ascii "trks" := by decide
  have hTanksTrks : ascii "tanks" ≠ ascii "trks" := by decide
  intro ctx
  show (contextOf _).field _ = _ ∧ (contextOf _).field _ = _ ∧ (contextOf _).field _ = _
  rw [List.append_assoc]
  refine ⟨field_arrayMember _ _ ?_, ?_, ?_⟩
  · rw [List.find?_append, find?_arrayMember_of_ne _ hTovarsTanks.symm,
      find?_arrayMember_of_ne _ hTovarsTrks.symm]
    rfl
  · rw [field_of_arrayMember_ne _ hTovarsTanks]
    exact field_arrayMember _ _ (find?_arrayMember_of_ne _ hTanksTrks.symm)
  · rw [field_of_arrayMember_ne _ hTovarsTrks, field_of_arrayMember_ne _ hTanksTrks,
      ← List.append_nil (arrayMember "trks" trks)]
    exact field_arrayMember _ _ rfl

/-- The only array of another endpoint. -/
theorem field_single (key : String) (values : List Json) :
    (contextOf (arrayMember key values)).field key = some (arrayOf values) := by
  rw [← List.append_nil (arrayMember key values)]
  exact field_arrayMember key values rfl

end Contexts

/-! ## The readers of one table -/

/-- A pump whose nozzles have no tank. -/
def Trk.bare (trk : Trk) : Trk :=
  { trk with pists := trk.pists.map fun pist => { pist with tank := none } }

/-- The variables of the loop without any tank. -/
def TrkLoop.bare (s : TrkLoop) : TrkLoop where
  trks := s.trks.map Trk.bare
  pist := { s.pist with tank := none }
  trk := s.trk.bare
  lastIdTrk := s.lastIdTrk

/-- `get_Trks` builds what `get_Trks_with_all` builds, without the tanks. -/
theorem trkLoopStep_bare (tanks : List Tank) (s : TrkLoop) (row : PistRow) :
    trkLoopStep [] s.bare row = (trkLoopStep tanks s row).map TrkLoop.bare := by
  unfold trkLoopStep
  by_cases hSame : row.idTrk = s.lastIdTrk
  · have hBare : row.idTrk = s.bare.lastIdTrk := hSame
    simp only [if_pos hSame, if_pos hBare]
    rcases List.eq_nil_or_concat' s.trks with hNil | ⟨init, last, hTrks⟩
    · have hBareNil : s.bare.trks = [] := by simp [TrkLoop.bare, hNil]
      rw [hNil, hBareNil]
      rfl
    · have hBareTrks : s.bare.trks = init.map Trk.bare ++ [last.bare] := by
        simp [TrkLoop.bare, hTrks]
      rw [hTrks, hBareTrks, List.getLast?_concat, List.getLast?_concat, List.dropLast_concat,
        List.dropLast_concat]
      simp [TrkLoop.bare, Trk.bare]
  · have hBare : ¬ row.idTrk = s.bare.lastIdTrk := hSame
    simp only [if_neg hSame, if_neg hBare]
    simp [TrkLoop.bare, Trk.bare]

theorem loadTrks_bare (tanks : List Tank) (rows : List PistRow) :
    loadTrks [] rows = (loadTrks tanks rows).map (·.map Trk.bare) := by
  unfold loadTrks
  have hLoop := foldlM_map_eq TrkLoop.bare (trkLoopStep_bare tanks) rows {}
  have hStart : TrkLoop.bare {} = {} := rfl
  rw [hStart] at hLoop
  rw [hLoop, Option.map_map, Option.map_map]
  rfl

theorem trkMembers_bare (trk : Trk) : trkMembers trk.bare = trkMembers trk := by
  unfold trkMembers Trk.bare
  simp only [List.map_eq_nil_iff, List.map_map]
  rfl

/-- The product of `get_Tovars` reads like the one of `get_Trks_with_all` only if its price
is the default. -/
theorem tovarJson_loadTovar_iff (row : Mysql.TovarRow) :
    tovarJson (loadTovar row) = tovarJson (loadTovarPrice row) ↔ row.price = -1 := by
  unfold tovarJson
  constructor
  · intro hSame
    simp only [Json.object.injEq, List.cons.injEq, jsonKey, Prod.mk.injEq, Json.float.injEq] at hSame
    exact hSame.2.2.2.2.2.1.2.symm
  · intro hPrice
    have hLoaded : loadTovarPrice row = loadTovar row := by
      unfold loadTovarPrice
      rw [hPrice]
      rfl
    rw [hLoaded]

/-- Further members do not hide one of another key. -/
theorem field_object_append {members rest : List (Bytes × Json)} {key : String}
    (hRest : rest.find? (fun m => m.1 = ascii key) = none) :
    (Json.object (members ++ rest)).field key = (Json.object members).field key := by
  show some _ = some _
  rw [List.find?_append, hRest, Option.or_none]

/-- The members of a pump that both endpoints have. -/
theorem parts_trkJson (trk : Trk) :
    ((trkJson trk).field "id_trk", (trkJson trk).field "pists") =
      ((Json.object (trkMembers trk.bare)).field "id_trk",
        (Json.object (trkMembers trk.bare)).field "pists") := by
  rw [trkMembers_bare]
  unfold trkJson
  rw [field_object_append rfl, field_object_append rfl]

theorem trkParts_of_field {ctx : Json} {values : List Json}
    (hField : ctx.field "trks" = some (arrayOf values)) :
    trkParts ctx = values.map fun trk => (trk.field "id_trk", trk.field "pists") := by
  unfold trkParts arrayOf at *
  rw [hField]
  split_ifs with hNone
  · rw [hNone]
    rfl
  · rfl

/-! ## Which contents make them agree -/

section Agree

variable {pl : Platform} {con : Connection} {w : World}

theorem tovarsContext_serves (hServes : Serves con w) :
    ∃ next, tovarsContext w = .ok
      (contextOf (arrayMember "tovars" ((tovarRows (w.tables con)).map (tovarJson ∘ loadTovar))))
      next := by
  obtain ⟨next, hRun, -⟩ := getTovars_serves hServes
  refine ⟨next, ?_⟩
  rw [tovarsContext, bind_of_ok hRun, List.map_map]
  rfl

theorem tanksContext_serves (hServes : Serves con w) :
    ∃ next, tanksContext w = .ok
      (contextOf (arrayMember "tanks" ((tankRows (w.tables con)).map (tankJson ∘ loadTank))))
      next := by
  obtain ⟨next, hRun, -⟩ := getTanks_serves hServes
  refine ⟨next, ?_⟩
  rw [tanksContext, bind_of_ok hRun, List.map_map]
  rfl

theorem trksContext_serves {trks : List Trk} (hServes : Serves con w)
    (hLoad : loadedTrks (w.station pl) (w.tables con) = some trks) :
    ∃ next, trksContext pl w = .ok
      (contextOf (arrayMember "trks" (trks.map fun trk => .object (trkMembers trk.bare)))) next := by
  have hBare : loadTrks [] (pistRows (w.station pl) (w.tables con)) = some (trks.map Trk.bare) := by
    rw [loadTrks_bare (loadedTanks (w.tables con))]
    exact congrArg (Option.map (List.map Trk.bare)) hLoad
  obtain ⟨next, hRun, -⟩ := getTrks_serves pl hServes hBare
  refine ⟨next, ?_⟩
  rw [trksContext, bind_of_ok hRun, List.map_map]
  rfl

/-- The value of `api_settings_get`. -/
def loadedContext (t : Mysql.Tables) (trks : List Trk) : Json :=
  contextOf
    (arrayMember "tovars" ((loadedTovars t).map tovarJson) ++
      arrayMember "tanks" ((loadedTanks t).map tankJson) ++
      arrayMember "trks" (trks.map trkJson))

theorem settingsContext_serves {sizes : List ScreenSize} {trks : List Trk} (pl : Platform)
    (hServes : Serves con w)
    (hSizes : loadedSizes (w.tables con) = some sizes)
    (hLoad : loadedTrks (w.station pl) (w.tables con) = some trks) :
    ∃ next, settingsContext pl w = .ok (loadedContext (w.tables con) trks) next ∧
      OnlyRead con w next := by
  obtain ⟨next, hRun, hRead⟩ := getTrksWithAll_serves pl hServes hSizes hLoad
  refine ⟨next, ?_, hRead⟩
  rw [settingsContext, bind_of_ok hRun]
  rfl

/-- Without a readable screen size, or with a first pump -1, there is no reply to compare. -/
theorem settingsContext_ne_ok (hServes : Serves con w)
    (hNone : loadedSizes (w.tables con) = none ∨
      loadedTrks (w.station pl) (w.tables con) = none) (ctx : Json) (next : World) :
    settingsContext pl w ≠ .ok ctx next := by
  intro hOk
  cases hSizes : loadedSizes (w.tables con) with
  | none =>
      obtain ⟨thrown, hRun, -⟩ := getTrksWithAll_throws pl hServes hSizes
      rw [settingsContext, bind_of_error hRun] at hOk
      cases hOk
  | some sizes =>
      have hLoad := hNone.resolve_left (by rw [hSizes]; exact Option.some_ne_none sizes)
      obtain ⟨stuck, hRun⟩ := getTrksWithAll_undefined pl hServes hSizes hLoad
      rw [settingsContext, bind_of_error hRun] at hOk
      cases hOk

/-- The tanks and the parts of the pumps agree for every content, and so do the products if
they have the default price. -/
theorem endpointsAgree_of_loaded {sizes : List ScreenSize} {trks : List Trk}
    (hServes : Serves con w) (hSizes : loadedSizes (w.tables con) = some sizes)
    (hLoad : loadedTrks (w.station pl) (w.tables con) = some trks) :
    EndpointsAgree pl w ↔ ∀ row ∈ (w.tables con).tovar, row.price = -1 := by
  obtain ⟨after, hAll, -⟩ := settingsContext_serves pl hServes hSizes hLoad
  obtain ⟨tovarsEnd, hTovars⟩ := tovarsContext_serves hServes
  obtain ⟨tanksEnd, hTanks⟩ := tanksContext_serves hServes
  obtain ⟨trksEnd, hTrks⟩ := trksContext_serves hServes hLoad
  obtain ⟨hFieldTovars, hFieldTanks, hFieldTrks⟩ := field_settings
    ((loadedTovars (w.tables con)).map tovarJson) ((loadedTanks (w.tables con)).map tankJson)
    (trks.map trkJson)
  have hPrices : (contextOf (arrayMember "tovars"
      ((tovarRows (w.tables con)).map (tovarJson ∘ loadTovar)))).field "tovars" =
        (loadedContext (w.tables con) trks).field "tovars" ↔
      ∀ row ∈ (w.tables con).tovar, row.price = -1 := by
    rw [loadedContext, hFieldTovars, field_single, loadedTovars, List.map_map, Option.some_inj,
      arrayOf_map_inj]
    constructor
    · intro hSame row hMem
      exact (tovarJson_loadTovar_iff row).mp (hSame row (List.mem_mergeSort.mpr hMem))
    · intro hPrice row hMem
      exact (tovarJson_loadTovar_iff row).mpr (hPrice row (List.mem_mergeSort.mp hMem))
  rw [← hPrices]
  constructor
  · exact fun hAgree => hAgree.tovars _ _ _ _ hAll hTovars
  · intro hSame
    refine ⟨fun all single next other hRun hOther => ?_, fun all single next other hRun hOther => ?_,
      fun all single next other hRun hOther => ?_⟩
    · rw [hAll] at hRun
      rw [hTovars] at hOther
      cases hRun
      cases hOther
      exact hSame
    · rw [hAll] at hRun
      rw [hTanks] at hOther
      cases hRun
      cases hOther
      rw [loadedContext, hFieldTanks, field_single, loadedTanks, List.map_map]
      rfl
    · rw [hAll] at hRun
      rw [hTrks] at hOther
      cases hRun
      cases hOther
      rw [trkParts_of_field (field_single _ _), loadedContext, trkParts_of_field hFieldTrks,
        List.map_map, List.map_map]
      exact List.map_congr_left fun trk _ => (parts_trkJson trk).symm

/-- The endpoints of the single tables agree with `api_settings_get` exactly if no product
has a price other than the default, or `api_settings_get` does not reply. -/
theorem endpoints_agree_iff (pl : Platform) (con : Connection) (w : World)
    (hServes : Serves con w) :
    EndpointsAgree pl w ↔
      loadedSizes (w.tables con) = none ∨
        (pistRows (w.station pl) (w.tables con)).head?.map (·.idTrk) = some (-1) ∨
        ∀ row ∈ (w.tables con).tovar, row.price = -1 := by
  have hHead : loadedTrks (w.station pl) (w.tables con) = none ↔
      (pistRows (w.station pl) (w.tables con)).head?.map (·.idTrk) = some (-1) :=
    loadTrks_eq_none_iff
  rw [← hHead]
  by_cases hNone : loadedSizes (w.tables con) = none ∨
      loadedTrks (w.station pl) (w.tables con) = none
  · have hNever := settingsContext_ne_ok hServes hNone
    refine iff_of_true ⟨?_, ?_, ?_⟩ (by tauto)
    · exact fun all _ next _ hRun => absurd hRun (hNever all next)
    · exact fun all _ next _ hRun => absurd hRun (hNever all next)
    · exact fun all _ next _ hRun => absurd hRun (hNever all next)
  · obtain ⟨hSizes, hLoad⟩ := not_or.mp hNone
    obtain ⟨sizes, hSome⟩ := Option.ne_none_iff_exists'.mp hSizes
    obtain ⟨trks, hTrks⟩ := Option.ne_none_iff_exists'.mp hLoad
    rw [endpointsAgree_of_loaded hServes hSome hTrks]
    simp only [hSizes, hLoad, false_or]

end Agree

/-! ## A price -/

/-- A database with one product, for 52. -/
def pricedProduct : Mysql.Tables := { tovar := [⟨1, 1, ascii "A95", [], [], [], 52, 0⟩] }

/-- Its price is -1 for `api_settings_tovars_get`. -/
theorem price_missing : ¬ EndpointsAgree .plain (stationWorld pricedProduct) := by
  have hSizes : loadedSizes ((stationWorld pricedProduct).tables ⟨{}, true⟩) = some [] := rfl
  have hRows : pistRows ((stationWorld pricedProduct).station .plain) pricedProduct = [] :=
    List.mergeSort_nil
  have hLoad : loadedTrks ((stationWorld pricedProduct).station .plain)
      ((stationWorld pricedProduct).tables ⟨{}, true⟩) = some [] := by
    show loadTrks _ (pistRows ((stationWorld pricedProduct).station .plain) pricedProduct) = some []
    rw [hRows]
    rfl
  intro hAgree
  have hPrice := (endpointsAgree_of_loaded (serves_stationWorld pricedProduct) hSizes hLoad).mp hAgree
  exact absurd (hPrice ⟨1, 1, ascii "A95", [], [], [], 52, 0⟩ (List.mem_singleton_self _)) (by decide)

/-- Two products without a price, a tank and a pump with its nozzle. -/
def unpricedPump : Mysql.Tables :=
  { tovar := [⟨1, 1, ascii "A95", [], [], [], -1, 0⟩, ⟨2, 2, ascii "A92", [], [], [], -1, 0⟩]
    tank := [⟨1, 1, 1, 1000, 500⟩]
    comTrk := [⟨1, 3, 0, 0, 1⟩]
    trk := [⟨1, 1, 1⟩] }

/-- With the price that `get_Tovars` leaves in its products, the endpoints agree. -/
theorem endpoints_agree_of_no_price : EndpointsAgree .plain (stationWorld unpricedPump) := by
  refine (endpoints_agree_iff .plain ⟨{}, true⟩ _ (serves_stationWorld unpricedPump)).mpr
    (Or.inr (Or.inr ?_))
  show ∀ row ∈ unpricedPump.tovar, row.price = -1
  decide

end Server
end AzsServer
