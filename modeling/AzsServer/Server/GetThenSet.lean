import AzsServer.Server.EndpointsAgree
import AzsServer.Server.References
import AzsServer.Server.Routes

/-!
# Posting back what was read

The reply of `api_settings_get`, posted to `api_settings_set`, stores every row as it is.
The reader and the writer of each table agree on the keys, on the nesting and on the
packing of the colors.
-/

namespace AzsServer
namespace Server

open Core Library Nlohmann

/-! ## The reply as a body -/

section Reading

theorem isInt32_of_byte {c : Int} (hByte : 0 ≤ c ∧ c < 256) : IsInt32 c := by
  unfold IsInt32
  omega

theorem fieldInt_of_field {json : Json} {key : String} {n : Int} (hField : json.field key = some (.int n))
    (hInt : IsInt32 n) : fieldInt json key = some n := by
  rw [fieldInt, hField]
  exact Json.toInt?_int hInt

/-- The components of a color that was unpacked are bytes. -/
theorem unpackColor_bytes (color : Int) :
    (0 ≤ (unpackColor color).r ∧ (unpackColor color).r < 256) ∧
      (0 ≤ (unpackColor color).g ∧ (unpackColor color).g < 256) ∧
      (0 ≤ (unpackColor color).b ∧ (unpackColor color).b < 256) := by
  have hByte : ∀ c : Int, 0 ≤ (lowByte c : Int) ∧ (lowByte c : Int) < 256 := fun c => by
    have hLess := lowByte_lt c
    omega
  exact ⟨hByte _, hByte _, hByte _⟩

theorem jsonToTovar_tovarJson {tovar : Tovar} (hId : IsInt32 tovar.idTovar)
    (hR : IsInt32 tovar.color.r) (hG : IsInt32 tovar.color.g) (hB : IsInt32 tovar.color.b) :
    jsonToTovar (tovarJson tovar) = tovar := by
  have hRead : readTovar (tovarJson tovar) = some tovar := by
    have hColor : (tovarJson tovar).field "color" =
      some (.object (colorMembers tovar.color)) := rfl
    unfold readTovar
    rw [fieldInt_of_field rfl hId, hColor]
    simp only [Option.bind_eq_bind, Option.bind_some]
    rw [fieldInt_of_field rfl hR, fieldInt_of_field rfl hG, fieldInt_of_field rfl hB]
    rfl
  rw [jsonToTovar, hRead]
  rfl

theorem jsonToTank_tankJson {tank : Tank} (hId : IsInt32 tank.idTank)
    (hTovar : IsInt32 tank.idTovar) (hVolume : IsInt32 tank.volume) (hRemain : IsInt32 tank.remain) :
    jsonToTank (tankJson tank) = { tank with tovar := none } := by
  have hRead : readTank (tankJson tank) = some { tank with tovar := none } := by
    unfold readTank
    rw [fieldInt_of_field rfl hId, fieldInt_of_field rfl hTovar, fieldInt_of_field rfl hRemain,
      fieldInt_of_field rfl hVolume]
    rfl
  rw [jsonToTank, hRead]
  rfl

/-- A nozzle as `json_to_trk` reads it. -/
def readPistValue (pist : Json) : Option Pist := do
  let idPist ← fieldInt pist "id_pist"
  let idTank ← fieldInt pist "id_tank"
  return ⟨idPist, idTank, none⟩

theorem readPist_eq (pists : Json) (i : Nat) :
    readPist pists i = (pists.item i >>= readPistValue) := rfl

theorem readPistValue_pistJson {pist : Pist} (hId : IsInt32 pist.idPist)
    (hTank : IsInt32 pist.idTank) :
    readPistValue (pistJson pist) = some { pist with tank := none } := by
  unfold readPistValue
  rw [fieldInt_of_field rfl hId, fieldInt_of_field rfl hTank]
  rfl

theorem field_pists_trkJson (trk : Trk) :
    (trkJson trk).field "pists" = some (arrayOf (trk.pists.map pistJson)) := by
  unfold trkJson trkMembers arrayOf
  by_cases hNone : trk.pists = []
  · rw [if_pos hNone, if_pos (by rw [hNone]; rfl)]
    rfl
  · rw [if_neg hNone, if_neg (by simpa using hNone)]
    rfl

/-- The loop over the nozzles. -/
theorem readPists_of_arrayOf (values : List Json) :
    (List.range (arrayOf values).size).mapM (readPist (arrayOf values)) =
      values.mapM readPistValue := by
  unfold arrayOf
  split_ifs with hNone
  · rw [hNone]
    rfl
  · exact Json.mapM_range_item values readPistValue

theorem mapM_readPistValue {pists : List Pist}
    (hPists : ∀ pist ∈ pists, IsInt32 pist.idPist ∧ IsInt32 pist.idTank) :
    (pists.map pistJson).mapM readPistValue =
      some (pists.map fun pist => { pist with tank := none }) := by
  induction pists with
  | nil => rfl
  | cons pist pists ih =>
      obtain ⟨hPist, hTank⟩ := hPists pist List.mem_cons_self
      rw [List.map_cons, List.mapM_cons, readPistValue_pistJson hPist hTank,
        ih fun other hMem => hPists other (List.mem_cons_of_mem _ hMem)]
      rfl

/-- The members of a pump behind its nozzles. -/
theorem field_trkJson (trk : Trk) :
    (trkJson trk).field "id_trk" = some (.int trk.idTrk) ∧
      (trkJson trk).field "x_pos" = some (.int trk.xPos) ∧
      (trkJson trk).field "y_pos" = some (.int trk.yPos) ∧
      (trkJson trk).field "scale" = some (.float trk.scale) := by
  unfold trkJson trkMembers
  split_ifs
  · exact ⟨rfl, rfl, rfl, rfl⟩
  · exact ⟨rfl, rfl, rfl, rfl⟩

theorem jsonToTrk_trkJson {trk : Trk} (hId : IsInt32 trk.idTrk) (hX : IsInt32 trk.xPos)
    (hY : IsInt32 trk.yPos) (hPists : ∀ pist ∈ trk.pists, IsInt32 pist.idPist ∧ IsInt32 pist.idTank) :
    jsonToTrk (trkJson trk) = trk.bare := by
  obtain ⟨hFieldId, hFieldX, hFieldY, hFieldScale⟩ := field_trkJson trk
  have hLoop := mapM_readPistValue hPists
  have hRead : readTrk (trkJson trk) = some trk.bare := by
    unfold readTrk
    rw [field_pists_trkJson]
    show ((List.range (arrayOf _).size).mapM (readPist (arrayOf _)) >>= _) = _
    rw [readPists_of_arrayOf, hLoop, fieldInt_of_field hFieldId hId, fieldInt_of_field hFieldX hX,
      fieldInt_of_field hFieldY hY, fieldFloat, hFieldScale]
    rfl
  rw [jsonToTrk, hRead]
  rfl

/-- An array of a value, as the handlers read it. -/
theorem arrayElements_of_field {json : Json} {key : String} {values : List Json}
    (hField : json.field key = some (arrayOf values)) : arrayElements json key = some values := by
  unfold arrayElements arrayOf at *
  rw [hField]
  split_ifs with hNone
  · rw [hNone]
    rfl
  · rfl

end Reading

/-! ## The contents that can be exchanged -/

/-- The ids are distinct and positive, and so are the nozzles of each pump. -/
structure DistinctIds (t : Mysql.Tables) : Prop where
  tovars : (t.tovar.map (·.idTovar)).Nodup
  tanks : (t.tank.map (·.idTank)).Nodup
  pumps : (t.comTrk.map (·.idTrk)).Nodup
  pists : (t.trk.map fun row => (row.idTrk, row.idPist)).Nodup
  tovarIds : ∀ row ∈ t.tovar, 0 < row.idTovar
  tankIds : ∀ row ∈ t.tank, 0 < row.idTank
  pumpIds : ∀ row ∈ t.comTrk, 0 < row.idTrk
  pistIds : ∀ row ∈ t.trk, 1 ≤ row.idPist

/-- The columns of the type `INT` that the server reads hold values of this type. -/
structure Int32Columns (t : Mysql.Tables) : Prop where
  tovars : ∀ row ∈ t.tovar, IsInt32 row.idTovar
  tanks : ∀ row ∈ t.tank,
    IsInt32 row.idTank ∧ IsInt32 row.idTovar ∧ IsInt32 row.volume ∧ IsInt32 row.remain
  pumps : ∀ row ∈ t.comTrk, IsInt32 row.idTrk ∧ IsInt32 row.xPos ∧ IsInt32 row.yPos
  pists : ∀ row ∈ t.trk, IsInt32 row.idPist ∧ IsInt32 row.idTank

/-- The products have colors of three bytes, names of plain UTF-8 and prices with two
decimals, and the pumps scales with six decimals. -/
structure Exchangeable (t : Mysql.Tables) : Prop where
  ids : DistinctIds t
  columns : Int32Columns t
  colors : ∀ row ∈ t.tovar, 0 ≤ row.color ∧ row.color < 2 ^ 24
  plain : ∀ row ∈ t.tovar, (loadTovarPrice row).plain = true
  utf8 : ∀ row ∈ t.tovar,
    Json.Utf8 row.name ∧ Json.Utf8 row.nameP ∧ Json.Utf8 row.namePF ∧ Json.Utf8 row.namePV
  prices : ∀ row ∈ t.tovar, HasDecimals 2 row.price
  scales : ∀ row ∈ t.comTrk, HasDecimals 6 row.scale

section Rows

variable {t : Mysql.Tables} {station : Int} {trks : List Trk} {trk : Trk}

theorem map_eq_self {α : Type} {f : α → α} {as : List α} (hSame : ∀ a ∈ as, f a = a) :
    as.map f = as := by
  rw [List.map_congr_left hSame]
  exact List.map_id' as

/-- A loaded pump comes from a row of `com_trk`, and its nozzles from rows of `trk`. -/
theorem loadedTrk_rows (hLoad : loadedTrks station t = some trks) (hMem : trk ∈ trks) :
    (∃ com ∈ t.comTrk, com.idAzs = station ∧ trk.idTrk = com.idTrk ∧ trk.xPos = com.xPos ∧
      trk.yPos = com.yPos ∧ trk.scale = com.scale) ∧
      ∀ pist ∈ trk.pists, ∃ row ∈ t.trk, row.idTrk = trk.idTrk ∧ row.idPist = pist.idPist ∧
        row.idTank = pist.idTank := by
  obtain ⟨s, rfl, hLoop⟩ := loadTrks_spec hLoad
  have hBuilt := hLoop.built trk hMem
  constructor
  · obtain ⟨row, hRow, hId, hX, hY, hScale⟩ := hBuilt.head
    obtain ⟨com, hCom, hStation, pist, _, _, rfl⟩ := mem_pistRows.mp hRow
    exact ⟨com, hCom, hStation, hId, hX, hY, hScale⟩
  · intro pist hPist
    obtain ⟨joined, hJoined, hId, hPistId, hTank⟩ := hBuilt.pists pist hPist
    obtain ⟨com, _, _, row, hRow, hCom, rfl⟩ := mem_pistRows.mp hJoined
    exact ⟨row, hRow, hCom.trans hId, hPistId.symm, hTank.symm⟩

/-- What `api_settings_set` reads of the reply. -/
def loadedForm (t : Mysql.Tables) (trks : List Trk) : SettingsForm :=
  ⟨loadedTovars t, (tankRows t).map loadTank, trks.map Trk.bare⟩

theorem postedForm_loadedContext (hColumns : Int32Columns t)
    (hLoad : loadedTrks station t = some trks) :
    postedForm (loadedContext t trks) = some (loadedForm t trks) := by
  obtain ⟨hTovars, hTanks, hTrks⟩ := field_settings ((loadedTovars t).map tovarJson)
    ((loadedTanks t).map tankJson) (trks.map trkJson)
  have hTovarForm : ((loadedTovars t).map tovarJson).map jsonToTovar = loadedTovars t := by
    rw [List.map_map]
    refine map_eq_self fun tovar hMem => ?_
    obtain ⟨row, hRow, rfl⟩ := List.mem_map.mp hMem
    obtain ⟨hR, hG, hB⟩ := unpackColor_bytes row.color
    exact jsonToTovar_tovarJson (hColumns.tovars row (List.mem_mergeSort.mp hRow))
      (isInt32_of_byte hR) (isInt32_of_byte hG) (isInt32_of_byte hB)
  have hTankForm : ((loadedTanks t).map tankJson).map jsonToTank = (tankRows t).map loadTank := by
    rw [loadedTanks, List.map_map, List.map_map]
    refine List.map_congr_left fun row hRow => ?_
    obtain ⟨hId, hTovar, hVolume, hRemain⟩ := hColumns.tanks row (List.mem_mergeSort.mp hRow)
    exact jsonToTank_tankJson hId hTovar hVolume hRemain
  have hTrkForm : (trks.map trkJson).map jsonToTrk = trks.map Trk.bare := by
    rw [List.map_map]
    refine List.map_congr_left fun trk hMem => ?_
    obtain ⟨⟨com, hCom, -, hId, hX, hY, -⟩, hPists⟩ := loadedTrk_rows hLoad hMem
    obtain ⟨hInt, hIntX, hIntY⟩ := hColumns.pumps com hCom
    refine jsonToTrk_trkJson (hId ▸ hInt) (hX ▸ hIntX) (hY ▸ hIntY) fun pist hPist => ?_
    obtain ⟨row, hRow, -, hPistId, hTank⟩ := hPists pist hPist
    obtain ⟨hIntPist, hIntTank⟩ := hColumns.pists row hRow
    exact ⟨hPistId ▸ hIntPist, hTank ▸ hIntTank⟩
  unfold postedForm
  rw [loadedContext, arrayElements_of_field hTovars, arrayElements_of_field hTanks,
    arrayElements_of_field hTrks]
  simp only [Option.bind_eq_bind, Option.bind_some, hTovarForm, hTankForm, hTrkForm]
  rfl

theorem setForm_loadedContext (hRows : Exchangeable t) (hLoad : loadedTrks station t = some trks) :
    setForm (loadedContext t trks) = some (loadedForm t trks) := by
  refine setForm_eq_some_iff.mpr ⟨postedForm_loadedContext hRows.columns hLoad, ?_⟩
  -- no id is -1
  rintro (hSome | hSome | hSome)
  · obtain ⟨tovar, hMem, hId⟩ := List.any_eq_true.mp hSome
    obtain ⟨row, hRow, rfl⟩ := List.mem_map.mp hMem
    have hPositive := hRows.ids.tovarIds row (List.mem_mergeSort.mp hRow)
    have hId : row.idTovar = -1 := of_decide_eq_true hId
    omega
  · obtain ⟨tank, hMem, hId⟩ := List.any_eq_true.mp hSome
    obtain ⟨row, hRow, rfl⟩ := List.mem_map.mp hMem
    have hPositive := hRows.ids.tankIds row (List.mem_mergeSort.mp hRow)
    have hId : row.idTank = -1 := of_decide_eq_true hId
    omega
  · obtain ⟨bare, hMem, hId⟩ := List.any_eq_true.mp hSome
    obtain ⟨trk, hTrk, rfl⟩ := List.mem_map.mp hMem
    obtain ⟨⟨com, hCom, -, hSame, -⟩, -⟩ := loadedTrk_rows hLoad hTrk
    have hPositive := hRows.ids.pumpIds com hCom
    have hId : trk.idTrk = -1 := of_decide_eq_true hId
    omega

/-! ## Storing a row as it is -/

theorem storeTovar_loaded (engine : Mysql.Engine) (hRows : Exchangeable t) {row : Mysql.TovarRow}
    (hMem : row ∈ t.tovar) : storeTovar engine (loadTovarPrice row) t = some t := by
  have hSame : t.tovar.map (storeTovarRow (loadTovarPrice row)) = t.tovar := by
    refine map_eq_self fun other hOther => ?_
    unfold storeTovarRow
    split_ifs with hId
    · obtain rfl : other = row := List.inj_on_of_nodup_map hRows.ids.tovars hOther hMem hId
      obtain ⟨hLow, hHigh⟩ := hRows.colors other hMem
      have hPrice : fixedValue 2 other.price = other.price :=
        fixedValue_eq_self_iff.mpr (hRows.prices other hMem)
      have hColor := getRgb_unpackColor hLow hHigh
      show (⟨other.nn, other.idTovar, other.name, other.nameP, other.namePF, other.namePV,
        fixedValue 2 other.price, _⟩ : Mysql.TovarRow) = other
      rw [hPrice]
      exact congrArg (fun color => (⟨other.nn, other.idTovar, other.name, other.nameP,
        other.namePF, other.namePV, other.price, color⟩ : Mysql.TovarRow)) hColor
    · rfl
  rw [storeTovar_of_plain engine t (hRows.plain row hMem), hSame]

theorem storeTank_loaded (hIds : DistinctIds t) {row : Mysql.TankRow} (hMem : row ∈ t.tank) :
    storeTank (loadTank row) t = t := by
  have hSame : t.tank.map (storeTankRow (loadTank row)) = t.tank := by
    refine map_eq_self fun other hOther => ?_
    unfold storeTankRow
    split_ifs with hId
    · obtain rfl : other = row := List.inj_on_of_nodup_map hIds.tanks hOther hMem hId
      rfl
    · rfl
  rw [storeTank, hSame]

/-- Nozzles that have their rows already. -/
theorem storePists_eq_self {idTrk maxId : Int} {rows : List Mysql.TrkRow}
    (hNodup : (rows.map fun row => (row.idTrk, row.idPist)).Nodup) {pists : List Pist}
    (hPists : ∀ pist ∈ pists, pist.idPist ≠ 0 ∧ ∃ row ∈ rows, row.idTrk = idTrk ∧
      row.idPist = pist.idPist ∧ row.idTank = pist.idTank) (n : Int) :
    storePists idTrk maxId n pists rows = rows := by
  induction pists with
  | nil => rfl
  | cons pist pists ih =>
      obtain ⟨hOld, row, hRow, hTrk, hPist, hTank⟩ := hPists pist List.mem_cons_self
      have hSame : rows.map (storePistRow idTrk pist) = rows := by
        refine map_eq_self fun other hOther => ?_
        unfold storePistRow
        split_ifs with hIds
        · have hKey : (other.idTrk, other.idPist) = (row.idTrk, row.idPist) :=
            Prod.ext (hIds.1.trans hTrk.symm) (hIds.2.trans hPist.symm)
          obtain rfl : other = row := List.inj_on_of_nodup_map hNodup hOther hRow hKey
          rw [← hTank]
        · rfl
      unfold storePists
      rw [if_neg hOld, hSame]
      exact ih fun other hMem => hPists other (List.mem_cons_of_mem _ hMem)

theorem storeTrk_loaded (hRows : Exchangeable t) (hLoad : loadedTrks station t = some trks)
    (hMem : trk ∈ trks) : storeTrk trk.bare t = t := by
  obtain ⟨⟨com, hCom, -, hId, hX, hY, hScale⟩, hPists⟩ := loadedTrk_rows hLoad hMem
  have hPumps : t.comTrk.map (storeComTrkRow trk.bare) = t.comTrk := by
    refine map_eq_self fun other hOther => ?_
    unfold storeComTrkRow
    split_ifs with hSame
    · obtain rfl : other = com :=
        List.inj_on_of_nodup_map hRows.ids.pumps hOther hCom (hSame.trans hId)
      have hDecimals := fixedValue_eq_self_iff.mpr (hRows.scales other hCom)
      show ({ other with xPos := trk.xPos, yPos := trk.yPos, scale := fixedValue 6 trk.scale } :
        Mysql.ComTrkRow) = other
      rw [hX, hY, hScale, hDecimals]
    · rfl
  have hNozzles : storePists trk.bare.idTrk (maxIdPist trk.bare.idTrk t.trk) 0 trk.bare.pists t.trk =
      t.trk := by
    refine storePists_eq_self hRows.ids.pists (fun bare hBare => ?_) 0
    obtain ⟨pist, hPist, rfl⟩ := List.mem_map.mp hBare
    obtain ⟨row, hRow, hTrk, hSamePist, hTank⟩ := hPists pist hPist
    have hPositive := hRows.ids.pistIds row hRow
    refine ⟨?_, row, hRow, hTrk, hSamePist, hTank⟩
    show pist.idPist ≠ 0
    omega
  rw [storeTrk, hPumps, hNozzles]

/-- The whole reply. -/
theorem stored_loadedForm (engine : Mysql.Engine) (hRows : Exchangeable t)
    (hLoad : loadedTrks station t = some trks) : (loadedForm t trks).stored engine t = some t := by
  have hTovarsSame : (loadedForm t trks).storeTovars engine t = some t := by
    refine foldlM_eq_self fun tovar hMem => ?_
    obtain ⟨row, hRow, rfl⟩ := List.mem_map.mp hMem
    exact storeTovar_loaded engine hRows (List.mem_mergeSort.mp hRow)
  have hTanksSame : (loadedForm t trks).tanks.foldl (fun t tank => storeTank tank t) t = t := by
    refine foldl_eq_self fun tank hMem => ?_
    obtain ⟨row, hRow, rfl⟩ := List.mem_map.mp hMem
    exact storeTank_loaded hRows.ids (List.mem_mergeSort.mp hRow)
  have hTrksSame : (loadedForm t trks).trks.foldl (fun t trk => storeTrk trk t) t = t := by
    refine foldl_eq_self fun bare hMem => ?_
    obtain ⟨trk, hTrk, rfl⟩ := List.mem_map.mp hMem
    exact storeTrk_loaded hRows hLoad hTrk
  rw [SettingsForm.stored, hTovarsSame, Option.map_some, SettingsForm.storeRest, hTanksSame,
    hTrksSame]

end Rows

/-! ## The reply can be written -/

section Dumping

open Json (Utf8 Dumpable)

theorem utf8_ascii {text : String}
    (hText : ascii text = text.toList.flatMap String.utf8EncodeChar) : Utf8 (ascii text) :=
  ⟨text.toList, hText⟩

/-- Members with plain keys. -/
theorem dumpable_object {members : List (Bytes × Json)}
    (hMembers : ∀ m ∈ members, Utf8 m.1 ∧ Dumpable m.2) : Dumpable (.object members) :=
  .object (fun m hMem => (hMembers m hMem).1) fun m hMem => (hMembers m hMem).2

theorem dumpable_tovarJson {tovar : Tovar} (hName : Utf8 tovar.name) (hNameP : Utf8 tovar.nameP)
    (hNamePF : Utf8 tovar.namePF) (hNamePV : Utf8 tovar.namePV) : Dumpable (tovarJson tovar) := by
  apply dumpable_object
  simp only [List.forall_mem_cons, jsonKey, List.not_mem_nil, false_imp_iff, implies_true, and_true]
  refine ⟨⟨utf8_ascii (by decide), .int _⟩, ⟨utf8_ascii (by decide), .string hName⟩,
    ⟨utf8_ascii (by decide), .string hNameP⟩, ⟨utf8_ascii (by decide), .string hNamePF⟩,
    ⟨utf8_ascii (by decide), .string hNamePV⟩, ⟨utf8_ascii (by decide), .float _⟩,
    utf8_ascii (by decide), dumpable_object ?_⟩
  simp only [colorMembers, List.forall_mem_cons, jsonKey, List.not_mem_nil, false_imp_iff,
    implies_true, and_true]
  exact ⟨⟨utf8_ascii (by decide), .int _⟩, ⟨utf8_ascii (by decide), .int _⟩,
    utf8_ascii (by decide), .int _⟩

theorem dumpable_tankJson (tank : Tank) : Dumpable (tankJson tank) := by
  apply dumpable_object
  simp only [List.forall_mem_cons, jsonKey, List.not_mem_nil, false_imp_iff, implies_true, and_true]
  exact ⟨⟨utf8_ascii (by decide), .int _⟩, ⟨utf8_ascii (by decide), .int _⟩,
    ⟨utf8_ascii (by decide), .int _⟩, utf8_ascii (by decide), .int _⟩

theorem dumpable_pistJson (pist : Pist) : Dumpable (pistJson pist) := by
  apply dumpable_object
  simp only [List.forall_mem_cons, jsonKey, List.not_mem_nil, false_imp_iff, implies_true, and_true]
  exact ⟨⟨utf8_ascii (by decide), .int _⟩, utf8_ascii (by decide), .int _⟩

theorem dumpable_arrayMember {key : String} {values : List Json} (hKey : Utf8 (ascii key))
    (hValues : ∀ value ∈ values, Dumpable value) :
    ∀ m ∈ arrayMember key values, Utf8 m.1 ∧ Dumpable m.2 := by
  unfold arrayMember
  split_ifs
  · exact fun m hMem => by cases hMem
  · intro m hMem
    rw [List.mem_singleton.mp hMem]
    exact ⟨hKey, .array hValues⟩

theorem dumpable_trkMembers (trk : Trk) : ∀ m ∈ trkMembers trk, Utf8 m.1 ∧ Dumpable m.2 := by
  unfold trkMembers
  rw [List.forall_mem_cons]
  refine ⟨⟨utf8_ascii (by decide), .int _⟩, ?_⟩
  split_ifs
  · exact fun m hMem => by cases hMem
  · intro m hMem
    rw [List.mem_singleton.mp hMem]
    refine ⟨utf8_ascii (by decide), .array fun value hValue => ?_⟩
    obtain ⟨pist, -, rfl⟩ := List.mem_map.mp hValue
    exact dumpable_pistJson pist

theorem dumpable_trkJson (trk : Trk) : Dumpable (trkJson trk) := by
  apply dumpable_object
  have hPosition : ∀ m ∈ [jsonKey "x_pos" (.int trk.xPos), jsonKey "y_pos" (.int trk.yPos),
      jsonKey "scale" (.float trk.scale)], Utf8 m.1 ∧ Dumpable m.2 := by
    simp only [List.forall_mem_cons, jsonKey, List.not_mem_nil, false_imp_iff, implies_true,
      and_true]
    exact ⟨⟨utf8_ascii (by decide), .int _⟩, ⟨utf8_ascii (by decide), .int _⟩,
      utf8_ascii (by decide), .float _⟩
  intro m hMem
  rcases List.mem_append.mp hMem with hOld | hRest
  · exact dumpable_trkMembers trk m hOld
  · exact hPosition m hRest

theorem dumpable_contextOf {members : List (Bytes × Json)}
    (hMembers : ∀ m ∈ members, Utf8 m.1 ∧ Dumpable m.2) : Dumpable (contextOf members) := by
  unfold contextOf
  split_ifs
  · exact .null
  · exact dumpable_object hMembers

/-- Names of UTF-8 are all that the reply needs. -/
theorem dumpable_loadedContext {t : Mysql.Tables} (trks : List Trk)
    (hNames : ∀ row ∈ t.tovar, Utf8 row.name ∧ Utf8 row.nameP ∧ Utf8 row.namePF ∧ Utf8 row.namePV) :
    Dumpable (loadedContext t trks) := by
  have hTovars : ∀ value ∈ (loadedTovars t).map tovarJson, Dumpable value := by
    intro value hMem
    obtain ⟨tovar, hTovar, rfl⟩ := List.mem_map.mp hMem
    obtain ⟨row, hRow, rfl⟩ := List.mem_map.mp hTovar
    obtain ⟨hName, hNameP, hNamePF, hNamePV⟩ := hNames row (List.mem_mergeSort.mp hRow)
    exact dumpable_tovarJson hName hNameP hNamePF hNamePV
  have hTanks : ∀ value ∈ (loadedTanks t).map tankJson, Dumpable value := by
    intro value hMem
    obtain ⟨tank, -, rfl⟩ := List.mem_map.mp hMem
    exact dumpable_tankJson tank
  have hTrks : ∀ value ∈ trks.map trkJson, Dumpable value := by
    intro value hMem
    obtain ⟨trk, -, rfl⟩ := List.mem_map.mp hMem
    exact dumpable_trkJson trk
  apply dumpable_contextOf
  intro m hMem
  rcases List.mem_append.mp hMem with hFirst | hLast
  · rcases List.mem_append.mp hFirst with hTovar | hTank
    · exact dumpable_arrayMember (utf8_ascii (by decide)) hTovars m hTovar
    · exact dumpable_arrayMember (utf8_ascii (by decide)) hTanks m hTank
  · exact dumpable_arrayMember (utf8_ascii (by decide)) hTrks m hLast

end Dumping

/-! ## The exchange -/

section Exchange

variable {pl : Platform} {con : Connection} {w got : World}

/-- The reply of `api_settings_get` is the text of what is in the tables. -/
theorem apiSettingsGet_run {sizes : List ScreenSize} {trks : List Trk} (hServes : Serves con w)
    (hSizes : loadedSizes (w.tables con) = some sizes)
    (hLoad : loadedTrks (w.station pl) (w.tables con) = some trks) :
    ∃ next, OnlyRead con w.jsonReply next ∧
      Admin.apiSettingsGet pl w = replyJson pl (loadedContext (w.tables con) trks) next := by
  have hHeader : Serves con w.jsonReply := ⟨hServes.con_eq, hServes.schema, hServes.sql⟩
  obtain ⟨next, hRun, hRead⟩ := settingsContext_serves pl hHeader hSizes hLoad
  refine ⟨next, hRead, ?_⟩
  rw [apiSettingsGet_eq, bind_of_ok (jsonHeader_run w), bind_of_ok hRun]
  rfl

/-- A reply is the text of its value. -/
theorem replyJson_eq_ok {ctx : Json} {next : World} (hRun : replyJson pl ctx w = .ok ⟨⟩ next) :
    ∃ text, pl.dump ctx = some text ∧ next.response.body = text ∧ next.azsDb = w.azsDb ∧
      next.mysql = w.mysql := by
  unfold replyJson at hRun
  cases hDump : pl.dump ctx with
  | none =>
      rw [hDump, bind_of_error (orThrow_none_run w)] at hRun
      cases hRun
  | some text =>
      rw [hDump, bind_of_ok (orThrow_some_run text w)] at hRun
      cases hRun
      exact ⟨text, rfl, rfl, rfl, rfl⟩

/-- The pumps of a station with positive ids can be loaded. -/
theorem loadedTrks_of_distinctIds {t : Mysql.Tables} (station : Int) (hIds : DistinctIds t) :
    ∃ trks, loadedTrks station t = some trks := by
  refine Option.ne_none_iff_exists'.mp (loadTrks_pistRows_ne_none station _ fun com hCom hMinus => ?_)
  have hPositive := hIds.pumpIds com hCom
  omega

/-- `api_settings_get` replies if the screen size can be read, and its reply, posted back,
is answered with "success" and leaves the tables as they are. -/
theorem settings_get_then_set (pl : Platform) (con : Connection) (w : World)
    (hServes : Serves con w) (hRows : Exchangeable (w.tables con))
    (hDump : ∀ value, value.Dumpable → pl.dump value ≠ none)
    (hInverse : ∀ value after text, settingsContext pl w = .ok value after →
      pl.dump value = some text → pl.parse text = some value) :
    (loadedSizes (w.tables con) ≠ none → ∃ got, Admin.apiSettingsGet pl w = .ok ⟨⟩ got) ∧
      ∀ got, Admin.apiSettingsGet pl w = .ok ⟨⟩ got → ∀ url cookie env,
        (∀ executed ∈ env.sql, executed = true) →
          ∃ done, Admin.apiSettingsSet pl ⟨url, cookie, got.response.body⟩ (got.received env) =
              .ok ⟨⟩ done ∧
            done.response.body = statusText "success" ∧ done.tables con = w.tables con := by
  obtain ⟨trks, hLoad⟩ := loadedTrks_of_distinctIds (w.station pl) hRows.ids
  constructor
  · intro hSizes
    obtain ⟨sizes, hSome⟩ := Option.ne_none_iff_exists'.mp hSizes
    obtain ⟨next, -, hRun⟩ := apiSettingsGet_run hServes hSome hLoad
    obtain ⟨text, hText⟩ := Option.ne_none_iff_exists'.mp
      (hDump _ (dumpable_loadedContext trks hRows.utf8))
    rw [hRun, replyJson, hText, bind_of_ok (orThrow_some_run text next)]
    exact ⟨_, rfl⟩
  · intro got hGot url cookie env hSql
    cases hSizes : loadedSizes (w.tables con) with
    | none =>
        have hHeader : Serves con w.jsonReply := ⟨hServes.con_eq, hServes.schema, hServes.sql⟩
        obtain ⟨thrown, hThrows, -⟩ := getTrksWithAll_throws pl hHeader hSizes
        rw [Admin.apiSettingsGet, bind_of_ok (jsonHeader_run w), bind_of_error hThrows] at hGot
        cases hGot
    | some sizes =>
        obtain ⟨next, hRead, hRun⟩ := apiSettingsGet_run hServes hSizes hLoad
        rw [hRun] at hGot
        obtain ⟨text, hText, hBody, hDb, hMysql⟩ := replyJson_eq_ok hGot
        obtain ⟨after, hContext, -⟩ := settingsContext_serves pl hServes hSizes hLoad
        have hParse : pl.parse got.response.body = some (loadedContext (w.tables con) trks) := by
          rw [hBody]
          exact hInverse _ after text hContext hText
        have hTables : (got.received env).tables con = w.tables con := by
          show got.mysql (address con.info) = w.mysql (address con.info)
          rw [hMysql, hRead.mysql]
          rfl
        have hPosted : Serves con (got.received env) := by
          refine ⟨?_, hServes.schema, hSql⟩
          show got.azsDb.con = some con
          rw [hDb, hRead.azsDb]
          exact hServes.con_eq
        have hStored : (loadedForm (w.tables con) trks).stored pl.mysql
            ((got.received env).tables con) = some (w.tables con) := by
          rw [hTables]
          exact stored_loadedForm pl.mysql hRows hLoad
        obtain ⟨done, hDone, hAnswer, hEnd, -⟩ := apiSettingsSet_serves
          ⟨url, cookie, got.response.body⟩ hPosted hParse (setForm_loadedContext hRows hLoad) hStored
        exact ⟨done, hDone, hAnswer, hEnd⟩

end Exchange

/-! ## One pump -/

/-- The pump that is loaded from `onePump`. -/
def onePumpTrk : Trk :=
  ⟨1, 0, 0, 1, [⟨1, 1, ((loadedTanks onePump).find? (·.idTank = 1)).or none⟩]⟩

theorem loadedTrks_onePump :
    loadedTrks ((stationWorld onePump).station .plain) onePump = some [onePumpTrk] := by
  have hRows : pistRows 3 onePump = [⟨1, 0, 0, 1, 1, 1⟩] := List.mergeSort_singleton _
  rw [station_stationWorld, loadedTrks, hRows]
  rfl

theorem exchangeable_onePump : Exchangeable onePump where
  ids := by constructor <;> decide
  columns := by constructor <;> (unfold IsInt32; decide)
  colors := by decide
  plain := by decide
  utf8 := by
    intro row hMem
    obtain rfl := List.mem_singleton.mp hMem
    exact ⟨utf8_ascii (by decide), ⟨[], rfl⟩, ⟨[], rfl⟩, ⟨[], rfl⟩⟩
  prices := by
    intro row hMem
    obtain rfl := List.mem_singleton.mp hMem
    exact ⟨5200, by norm_num⟩
  scales := by
    intro row hMem
    obtain rfl := List.mem_singleton.mp hMem
    exact ⟨1000000, by norm_num⟩

/-- A platform that reads and writes the settings of `onePump`. -/
def onePumpPlatform : Platform := .exchanging .plain [loadedContext onePump [onePumpTrk]]

/-- The settings of one pump are read and posted back. -/
theorem onePump_got_then_set :
    ∃ got, Admin.apiSettingsGet onePumpPlatform (stationWorld onePump) = .ok ⟨⟩ got ∧
      ∃ done, Admin.apiSettingsSet onePumpPlatform ⟨ascii "/api/settings/set", [],
          got.response.body⟩ (got.received { now := .epoch }) = .ok ⟨⟩ done ∧
        done.response.body = statusText "success" ∧ done.tables ⟨{}, true⟩ = onePump := by
  have hServes := serves_stationWorld onePump
  have hSizes : loadedSizes onePump = some [] := rfl
  have hLoad : loadedTrks ((stationWorld onePump).station onePumpPlatform) onePump =
      some [onePumpTrk] := loadedTrks_onePump
  obtain ⟨hReplies, hExchange⟩ := settings_get_then_set onePumpPlatform ⟨{}, true⟩
    (stationWorld onePump) hServes exchangeable_onePump (fun value _ => Option.some_ne_none _) (by
      intro value after text hContext hText
      obtain ⟨next, hRun, -⟩ := settingsContext_serves onePumpPlatform hServes hSizes hLoad
      rw [hRun] at hContext
      cases hContext
      obtain rfl := Option.some.inj hText
      exact Platform.plain.parse_exchanging _)
  have hReadable : loadedSizes onePump ≠ none := by
    rw [hSizes]
    exact Option.some_ne_none _
  obtain ⟨got, hGot⟩ := hReplies hReadable
  exact ⟨got, hGot, hExchange got hGot _ _ _ fun executed hMem => by cases hMem⟩

end Server
end AzsServer
