import AzsServer.Server.Completion
import AzsServer.Server.StoredRows

/-!
# Reading what was posted

What `api_settings_get` shows of the values that were posted to `api_settings_set` before.
The writers send `UPDATE`s, which change no row when no row has the posted id, and only a
nozzle that is posted with the id 0 is inserted; the answer is "success" in any case.
-/

namespace AzsServer
namespace Server

open Core Library Nlohmann

/-! ## Values that show each other -/

/-- A member that is a number. -/
def numberIn (x : Json) (key : String) : Option Rat := x.field key >>= Json.number?

/-- The elements of a member that is an array. -/
def elementsIn (x : Json) (key : String) : List Json := (arrayElements x key).getD []

/-- Both values have the same number in a member. -/
def SameNumber (x y : Json) (key : String) : Prop :=
  numberIn x key ≠ none ∧ numberIn x key = numberIn y key

/-- Both values have the same text in a member. -/
def SameText (x y : Json) (key : String) : Prop :=
  fieldString x key ≠ none ∧ fieldString x key = fieldString y key

/-- The second value shows the product of the first one. -/
structure ShowsTovar (x y : Json) : Prop where
  id : SameNumber x y "id_tovar"
  name : SameText x y "name"
  nameP : SameText x y "name_p"
  namePF : SameText x y "name_p_f"
  namePV : SameText x y "name_p_v"
  price : SameNumber x y "price"
  color : ∃ first second, x.field "color" = some first ∧ y.field "color" = some second ∧
    SameNumber first second "r" ∧ SameNumber first second "g" ∧ SameNumber first second "b"

/-- The second value shows the tank of the first one. -/
structure ShowsTank (x y : Json) : Prop where
  id : SameNumber x y "id_tank"
  tovar : SameNumber x y "id_tovar"
  volume : SameNumber x y "volume"
  remain : SameNumber x y "remain"

/-- One of the values shows the tank of a nozzle under an id: the nozzle's own one, or one
that was not there before if the nozzle is new. -/
structure ShownAs (before : List Int) (ys : List Json) (x : Json) (id : Int) : Prop where
  shown : ∃ y ∈ ys, numberIn y "id_pist" = some (id : Rat) ∧ SameNumber x y "id_tank"
  own : numberIn x "id_pist" = some (id : Rat) ∨ numberIn x "id_pist" = some 0 ∧ id ∉ before

/-- The second value shows the pump of the first one, and its nozzles under different ids. -/
structure ShowsTrk (before : List Int) (x y : Json) : Prop where
  id : SameNumber x y "id_trk"
  xPos : SameNumber x y "x_pos"
  yPos : SameNumber x y "y_pos"
  scale : SameNumber x y "scale"
  pists : ∃ ids : List Int, ids.Nodup ∧
    List.Forall₂ (ShownAs before (elementsIn y "pists")) (elementsIn x "pists") ids

/-- The ids of the nozzles of a pump. -/
def pistIds (t : Mysql.Tables) (idTrk : Int) : List Int :=
  (t.trk.filter (·.idTrk = idTrk)).map (·.idPist)

/-- A value shows everything that was posted over some tables. -/
structure ShowsPosted (t : Mysql.Tables) (json ctx : Json) : Prop where
  tovars : ∀ x ∈ elementsIn json "tovars", ∃ y ∈ elementsIn ctx "tovars", ShowsTovar x y
  tanks : ∀ x ∈ elementsIn json "tanks", ∃ y ∈ elementsIn ctx "tanks", ShowsTank x y
  trks : ∀ x ∈ elementsIn json "trks", ∃ y ∈ elementsIn ctx "trks",
    ShowsTrk (pistIds t (jsonToTrk x).idTrk) x y

/-! ## Numbers that are read as they are -/

/-- A member is a whole number of the type `int`. -/
def WholeIn (x : Json) (key : String) : Prop :=
  ∃ n : Int, numberIn x key = some (n : Rat) ∧ IsInt32 n

/-- The numbers of a product are read as they are. -/
structure WholeTovar (x : Json) : Prop where
  id : WholeIn x "id_tovar"
  price : numberIn x "price" ≠ none
  color : ∃ color, x.field "color" = some color ∧
    WholeIn color "r" ∧ WholeIn color "g" ∧ WholeIn color "b"

/-- The numbers of a tank are read as they are. -/
structure WholeTank (x : Json) : Prop where
  id : WholeIn x "id_tank"
  tovar : WholeIn x "id_tovar"
  volume : WholeIn x "volume"
  remain : WholeIn x "remain"

/-- The numbers of a nozzle are read as they are. -/
structure WholePist (x : Json) : Prop where
  id : WholeIn x "id_pist"
  tank : WholeIn x "id_tank"

/-- The numbers of a pump are read as they are. -/
structure WholeTrk (x : Json) : Prop where
  id : WholeIn x "id_trk"
  xPos : WholeIn x "x_pos"
  yPos : WholeIn x "y_pos"
  scale : numberIn x "scale" ≠ none
  pists : ∀ pist ∈ elementsIn x "pists", WholePist pist

section Reading

variable {x y : Json} {key : String} {n : Int} {q : Rat} {text : Bytes} {tovar : Tovar} {tank : Tank}

theorem numberIn_of_int (hField : y.field key = some (.int n)) : numberIn y key = some (n : Rat) := by
  rw [numberIn, hField]
  rfl

theorem numberIn_of_float (hField : y.field key = some (.float q)) : numberIn y key = some q := by
  rw [numberIn, hField]
  rfl

theorem fieldString_of_string (hField : y.field key = some (.string text)) :
    fieldString y key = some text := by
  rw [fieldString, hField]
  rfl

theorem fieldInt_of_numberIn (hNumber : numberIn x key = some (n : Rat)) (hInt : IsInt32 n) :
    fieldInt x key = some n := by
  obtain ⟨value, hField, hNumber⟩ := Option.bind_eq_some_iff.mp hNumber
  rw [fieldInt, hField]
  exact Json.toInt?_of_number hNumber hInt

theorem fieldFloat_of_numberIn (hNumber : numberIn x key = some q) : fieldFloat x key = some q := by
  obtain ⟨value, hField, hNumber⟩ := Option.bind_eq_some_iff.mp hNumber
  rw [fieldFloat, hField]
  exact Json.toFloat?_of_number hNumber

namespace SameNumber

/-- An integer of the right type that is shown was read. -/
theorem fieldInt (hSame : SameNumber x y key) (hField : y.field key = some (.int n))
    (hInt : IsInt32 n) : fieldInt x key = some n :=
  fieldInt_of_numberIn (hSame.2.trans (numberIn_of_int hField)) hInt

theorem fieldFloat (hSame : SameNumber x y key) (hField : y.field key = some (.float q)) :
    fieldFloat x key = some q :=
  fieldFloat_of_numberIn (hSame.2.trans (numberIn_of_float hField))

end SameNumber

theorem SameText.fieldString (hSame : SameText x y key) (hField : y.field key = some (.string text)) :
    fieldString x key = some text :=
  hSame.2.trans (fieldString_of_string hField)

theorem SameNumber.whole (hSame : SameNumber x y key) (hField : y.field key = some (.int n))
    (hInt : IsInt32 n) : WholeIn x key :=
  ⟨n, hSame.2.trans (numberIn_of_int hField), hInt⟩

/-- A whole number is the one that was read. -/
theorem WholeIn.numberIn_eq (hWhole : WholeIn x key) (hRead : fieldInt x key = some n) :
    numberIn x key = some (n : Rat) := by
  obtain ⟨whole, hNumber, hInt⟩ := hWhole
  have hSame := (fieldInt_of_numberIn hNumber hInt).symm.trans hRead
  rw [hNumber, Option.some.inj hSame]

/-- And it is shown by a member that has been made of it. -/
theorem WholeIn.sameNumber (hWhole : WholeIn x key) (hRead : fieldInt x key = some n)
    (hField : y.field key = some (.int n)) : SameNumber x y key := by
  have hNumber := hWhole.numberIn_eq hRead
  refine ⟨?_, hNumber.trans (numberIn_of_int hField).symm⟩
  rw [hNumber]
  exact Option.some_ne_none _

theorem sameNumber_of_float (hSome : numberIn x key ≠ none) (hRead : fieldFloat x key = some q)
    (hField : y.field key = some (.float q)) : SameNumber x y key := by
  obtain ⟨value, hNumber⟩ := Option.ne_none_iff_exists'.mp hSome
  have hSame := (fieldFloat_of_numberIn hNumber).symm.trans hRead
  refine ⟨hSome, ?_⟩
  rw [hNumber, numberIn_of_float hField, Option.some.inj hSame]

theorem sameText_of_string (hRead : fieldString x key = some text)
    (hField : y.field key = some (.string text)) : SameText x y key := by
  refine ⟨?_, hRead.trans (fieldString_of_string hField).symm⟩
  rw [hRead]
  exact Option.some_ne_none _

/-- A product is shown by a row exactly if its numbers are read as they are and the row has
its values. -/
theorem showsTovar_iff (hId : IsInt32 tovar.idTovar) (hR : IsInt32 tovar.color.r)
    (hG : IsInt32 tovar.color.g) (hB : IsInt32 tovar.color.b)
    (hRead : readTovar x = some (jsonToTovar x)) :
    ShowsTovar x (tovarJson tovar) ↔ WholeTovar x ∧ jsonToTovar x = tovar := by
  constructor
  · intro hShows
    obtain ⟨first, second, hFirst, hSecond, hSameR, hSameG, hSameB⟩ := hShows.color
    obtain rfl : Json.object (colorMembers tovar.color) = second := Option.some.inj hSecond
    refine ⟨⟨hShows.id.whole rfl hId, hShows.price.1, first, hFirst, hSameR.whole rfl hR,
      hSameG.whole rfl hG, hSameB.whole rfl hB⟩, Option.some.inj (hRead.symm.trans ?_)⟩
    unfold readTovar
    rw [hShows.id.fieldInt rfl hId, hShows.name.fieldString rfl, hShows.nameP.fieldString rfl,
      hShows.namePF.fieldString rfl, hShows.namePV.fieldString rfl, hShows.price.fieldFloat rfl,
      hFirst]
    simp only [Option.bind_eq_bind, Option.bind_some]
    rw [hSameR.fieldInt rfl hR, hSameG.fieldInt rfl hG, hSameB.fieldInt rfl hB]
    rfl
  · rintro ⟨hWhole, rfl⟩
    obtain ⟨idTovar, hIdRead, hRest⟩ := Option.bind_eq_some_iff.mp hRead
    obtain ⟨name, hName, hRest⟩ := Option.bind_eq_some_iff.mp hRest
    obtain ⟨nameP, hNameP, hRest⟩ := Option.bind_eq_some_iff.mp hRest
    obtain ⟨namePF, hNamePF, hRest⟩ := Option.bind_eq_some_iff.mp hRest
    obtain ⟨namePV, hNamePV, hRest⟩ := Option.bind_eq_some_iff.mp hRest
    obtain ⟨price, hPrice, hRest⟩ := Option.bind_eq_some_iff.mp hRest
    obtain ⟨color, hColor, hRest⟩ := Option.bind_eq_some_iff.mp hRest
    obtain ⟨r, hRedRead, hRest⟩ := Option.bind_eq_some_iff.mp hRest
    obtain ⟨g, hGreenRead, hRest⟩ := Option.bind_eq_some_iff.mp hRest
    obtain ⟨b, hBlueRead, hRest⟩ := Option.bind_eq_some_iff.mp hRest
    rw [← Option.some.inj hRest]
    obtain ⟨other, hOther, hWholeR, hWholeG, hWholeB⟩ := hWhole.color
    obtain rfl : color = other := Option.some.inj (hColor.symm.trans hOther)
    exact ⟨hWhole.id.sameNumber hIdRead rfl, sameText_of_string hName rfl,
      sameText_of_string hNameP rfl, sameText_of_string hNamePF rfl, sameText_of_string hNamePV rfl,
      sameNumber_of_float hWhole.price hPrice rfl, color, _, hColor, rfl,
      hWholeR.sameNumber hRedRead rfl, hWholeG.sameNumber hGreenRead rfl,
      hWholeB.sameNumber hBlueRead rfl⟩

theorem showsTank_iff (hId : IsInt32 tank.idTank) (hTovar : IsInt32 tank.idTovar)
    (hVolume : IsInt32 tank.volume) (hRemain : IsInt32 tank.remain)
    (hRead : readTank x = some (jsonToTank x)) :
    ShowsTank x (tankJson tank) ↔ WholeTank x ∧ jsonToTank x = { tank with tovar := none } := by
  constructor
  · intro hShows
    refine ⟨⟨hShows.id.whole rfl hId, hShows.tovar.whole rfl hTovar,
      hShows.volume.whole rfl hVolume, hShows.remain.whole rfl hRemain⟩,
      Option.some.inj (hRead.symm.trans ?_)⟩
    unfold readTank
    rw [hShows.id.fieldInt rfl hId, hShows.tovar.fieldInt rfl hTovar,
      hShows.remain.fieldInt rfl hRemain, hShows.volume.fieldInt rfl hVolume]
    rfl
  · rintro ⟨hWhole, hSame⟩
    obtain ⟨idTank, hIdRead, hRest⟩ := Option.bind_eq_some_iff.mp hRead
    obtain ⟨idTovar, hTovarRead, hRest⟩ := Option.bind_eq_some_iff.mp hRest
    obtain ⟨remain, hRemainRead, hRest⟩ := Option.bind_eq_some_iff.mp hRest
    obtain ⟨volume, hVolumeRead, hRest⟩ := Option.bind_eq_some_iff.mp hRest
    have hShown : ShowsTank x (tankJson (jsonToTank x)) := by
      rw [← Option.some.inj hRest]
      exact ⟨hWhole.id.sameNumber hIdRead rfl, hWhole.tovar.sameNumber hTovarRead rfl,
        hWhole.volume.sameNumber hVolumeRead rfl, hWhole.remain.sameNumber hRemainRead rfl⟩
    rw [hSame] at hShown
    exact hShown

/-- The loop over the nozzles reads the elements of an array, and has nothing to read in a
value of another type that it survives. -/
theorem pists_of_readTrk {trk : Trk} (hRead : readTrk x = some trk) :
    (elementsIn x "pists").mapM readPistValue = some trk.pists := by
  obtain ⟨value, hField, hRead⟩ := Option.bind_eq_some_iff.mp hRead
  obtain ⟨pists, hPists, hRead⟩ := Option.bind_eq_some_iff.mp hRead
  obtain ⟨idTrk, -, hRead⟩ := Option.bind_eq_some_iff.mp hRead
  obtain ⟨xPos, -, hRead⟩ := Option.bind_eq_some_iff.mp hRead
  obtain ⟨yPos, -, hRead⟩ := Option.bind_eq_some_iff.mp hRead
  obtain ⟨scale, -, hRead⟩ := Option.bind_eq_some_iff.mp hRead
  obtain rfl := Option.some.inj hRead
  have hElements : elementsIn x "pists" = value.elements?.getD [] := by
    rw [elementsIn, arrayElements, hField]
    rfl
  rw [hElements]
  -- without elements there is nothing to read
  have hNone : (∀ i, value.item i = none) → pists = [] := by
    intro hItem
    cases hSize : value.size with
    | zero =>
        rw [hSize] at hPists
        exact (Option.some.inj hPists).symm
    | succ n =>
        rw [hSize, List.range_succ_eq_map, List.mapM_cons, readPist_eq, hItem] at hPists
        cases hPists
  cases value with
  | array values => exact (Json.mapM_range_item values readPistValue).symm.trans hPists
  | null => exact hPists
  | object members => exact congrArg some (hNone fun _ => rfl).symm
  | _ => exact congrArg some (hNone fun _ => rfl).symm

/-- The other members of a pump. -/
theorem fields_of_readTrk {trk : Trk} (hRead : readTrk x = some trk) :
    fieldInt x "id_trk" = some trk.idTrk ∧ fieldInt x "x_pos" = some trk.xPos ∧
      fieldInt x "y_pos" = some trk.yPos ∧ fieldFloat x "scale" = some trk.scale := by
  obtain ⟨value, -, hRead⟩ := Option.bind_eq_some_iff.mp hRead
  obtain ⟨pists, -, hRead⟩ := Option.bind_eq_some_iff.mp hRead
  obtain ⟨idTrk, hId, hRead⟩ := Option.bind_eq_some_iff.mp hRead
  obtain ⟨xPos, hX, hRead⟩ := Option.bind_eq_some_iff.mp hRead
  obtain ⟨yPos, hY, hRead⟩ := Option.bind_eq_some_iff.mp hRead
  obtain ⟨scale, hScale, hRead⟩ := Option.bind_eq_some_iff.mp hRead
  obtain rfl := Option.some.inj hRead
  exact ⟨hId, hX, hY, hScale⟩

/-- A nozzle is found under an id among the nozzles of a pump. -/
structure FoundAs (before : List Int) (pists : List Pist) (pist : Pist) (id : Int) : Prop where
  found : ∃ other ∈ pists, other.idPist = id ∧ other.idTank = pist.idTank
  own : pist.idPist = id ∨ pist.idPist = 0 ∧ id ∉ before

/-- A pump is found: its position, its scale and its nozzles. -/
structure FoundTrk (before : List Int) (got trk : Trk) : Prop where
  id : got.idTrk = trk.idTrk
  xPos : got.xPos = trk.xPos
  yPos : got.yPos = trk.yPos
  scale : got.scale = trk.scale
  pists : ∃ ids : List Int, ids.Nodup ∧
    List.Forall₂ (FoundAs before got.pists) trk.pists ids

/-- A nozzle is shown exactly if its numbers are read as they are and it is found. -/
theorem shownAs_iff {before : List Int} {pists : List Pist} {pist : Pist} {id : Int}
    (hInt : ∀ other ∈ pists, IsInt32 other.idPist ∧ IsInt32 other.idTank)
    (hRead : readPistValue x = some pist) :
    ShownAs before (pists.map pistJson) x id ↔ WholePist x ∧ FoundAs before pists pist id := by
  obtain ⟨idPist, hId, hRest⟩ := Option.bind_eq_some_iff.mp hRead
  obtain ⟨idTank, hTank, hRest⟩ := Option.bind_eq_some_iff.mp hRest
  obtain rfl := Option.some.inj hRest
  constructor
  · rintro ⟨⟨y, hY, hNumber, hSameTank⟩, hOwn⟩
    obtain ⟨other, hOther, rfl⟩ := List.mem_map.mp hY
    have hOtherId : other.idPist = id :=
      Int.cast_injective (Option.some.inj ((numberIn_of_int rfl).symm.trans hNumber))
    obtain ⟨hIntPist, hIntTank⟩ := hInt other hOther
    have hTankSame : idTank = other.idTank :=
      Option.some.inj (hTank.symm.trans (hSameTank.fieldInt rfl hIntTank))
    rw [hOtherId] at hIntPist
    have hZero : IsInt32 0 := by
      unfold IsInt32
      omega
    -- the posted id is the one found, or 0
    rcases hOwn with hSame | ⟨hNew, hFresh⟩
    · have hIdSame : idPist = id :=
        Option.some.inj (hId.symm.trans (fieldInt_of_numberIn hSame hIntPist))
      exact ⟨⟨⟨id, hSame, hIntPist⟩, hSameTank.whole rfl hIntTank⟩,
        ⟨other, hOther, hOtherId, hTankSame.symm⟩, Or.inl hIdSame⟩
    · have hNew : numberIn x "id_pist" = some ((0 : Int) : Rat) := by rw [hNew, Int.cast_zero]
      have hIdSame : idPist = 0 :=
        Option.some.inj (hId.symm.trans (fieldInt_of_numberIn hNew hZero))
      exact ⟨⟨⟨0, hNew, hZero⟩, hSameTank.whole rfl hIntTank⟩,
        ⟨other, hOther, hOtherId, hTankSame.symm⟩, Or.inr ⟨hIdSame, hFresh⟩⟩
  · rintro ⟨⟨hWholeId, hWholeTank⟩, ⟨other, hOther, hOtherId, hOtherTank⟩, hOwn⟩
    have hNumber := hWholeId.numberIn_eq hId
    have hOtherTank : other.idTank = idTank := hOtherTank
    refine ⟨⟨pistJson other, List.mem_map_of_mem hOther, ?_, ?_⟩, ?_⟩
    · rw [← hOtherId]
      exact numberIn_of_int rfl
    · exact hWholeTank.sameNumber hTank (by rw [← hOtherTank]; rfl)
    · rcases hOwn with hSame | ⟨hNew, hFresh⟩
      · have hSame : idPist = id := hSame
        exact Or.inl (by rw [hNumber, hSame])
      · have hNew : idPist = 0 := hNew
        exact Or.inr ⟨by rw [hNumber, hNew, Int.cast_zero], hFresh⟩

/-- All nozzles of a pump. -/
theorem forall₂_shownAs_iff {before ids : List Int} {pists : List Pist} {xs : List Json}
    {posted : List Pist} (hInt : ∀ other ∈ pists, IsInt32 other.idPist ∧ IsInt32 other.idTank)
    (hRead : xs.mapM readPistValue = some posted) :
    List.Forall₂ (ShownAs before (pists.map pistJson)) xs ids ↔
      (∀ x ∈ xs, WholePist x) ∧ List.Forall₂ (FoundAs before pists) posted ids := by
  induction xs generalizing posted ids with
  | nil =>
      obtain rfl := Option.some.inj hRead
      constructor
      · intro hShown
        cases hShown
        exact ⟨fun _ hMem => (by cases hMem), .nil⟩
      · rintro ⟨-, hFound⟩
        cases hFound
        exact .nil
  | cons x xs ih =>
      rw [List.mapM_cons] at hRead
      obtain ⟨pist, hHead, hRead⟩ := Option.bind_eq_some_iff.mp hRead
      obtain ⟨rest, hRest, hRead⟩ := Option.bind_eq_some_iff.mp hRead
      obtain rfl := Option.some.inj hRead
      rw [List.forall_mem_cons]
      constructor
      · intro hShown
        cases hShown with
        | cons hFirst hTail =>
            obtain ⟨hWhole, hFound⟩ := (shownAs_iff hInt hHead).mp hFirst
            obtain ⟨hWholeRest, hFoundRest⟩ := (ih hRest).mp hTail
            exact ⟨⟨hWhole, hWholeRest⟩, .cons hFound hFoundRest⟩
      · rintro ⟨⟨hWhole, hWholeRest⟩, hFound⟩
        cases hFound with
        | cons hFirst hTail =>
            exact .cons ((shownAs_iff hInt hHead).mpr ⟨hWhole, hFirst⟩)
              ((ih hRest).mpr ⟨hWholeRest, hTail⟩)

/-- A pump is shown by a loaded one exactly if its numbers are read as they are and it is
found. -/
theorem showsTrk_iff {before : List Int} {got : Trk} (hId : IsInt32 got.idTrk)
    (hX : IsInt32 got.xPos) (hY : IsInt32 got.yPos)
    (hInt : ∀ other ∈ got.pists, IsInt32 other.idPist ∧ IsInt32 other.idTank)
    (hRead : readTrk x = some (jsonToTrk x)) :
    ShowsTrk before x (trkJson got) ↔ WholeTrk x ∧ FoundTrk before got (jsonToTrk x) := by
  obtain ⟨hReadId, hReadX, hReadY, hReadScale⟩ := fields_of_readTrk hRead
  obtain ⟨hFieldId, hFieldX, hFieldY, hFieldScale⟩ := field_trkJson got
  have hElements : elementsIn (trkJson got) "pists" = got.pists.map pistJson := by
    rw [elementsIn, arrayElements_of_field (field_pists_trkJson got)]
    rfl
  have hPists : ∀ ids, List.Forall₂ (ShownAs before (elementsIn (trkJson got) "pists"))
      (elementsIn x "pists") ids ↔ (∀ pist ∈ elementsIn x "pists", WholePist pist) ∧
        List.Forall₂ (FoundAs before got.pists) (jsonToTrk x).pists ids := fun ids => by
    rw [hElements]
    exact forall₂_shownAs_iff hInt (pists_of_readTrk hRead)
  constructor
  · rintro ⟨hSameId, hSameX, hSameY, hSameScale, ids, hNodup, hShown⟩
    obtain ⟨hWhole, hFound⟩ := (hPists ids).mp hShown
    have hIdSame : got.idTrk = (jsonToTrk x).idTrk :=
      Option.some.inj ((hSameId.fieldInt hFieldId hId).symm.trans hReadId)
    have hXSame : got.xPos = (jsonToTrk x).xPos :=
      Option.some.inj ((hSameX.fieldInt hFieldX hX).symm.trans hReadX)
    have hYSame : got.yPos = (jsonToTrk x).yPos :=
      Option.some.inj ((hSameY.fieldInt hFieldY hY).symm.trans hReadY)
    have hScaleSame : got.scale = (jsonToTrk x).scale :=
      Option.some.inj ((hSameScale.fieldFloat hFieldScale).symm.trans hReadScale)
    exact ⟨⟨hSameId.whole hFieldId hId, hSameX.whole hFieldX hX, hSameY.whole hFieldY hY,
      hSameScale.1, hWhole⟩, hIdSame, hXSame, hYSame, hScaleSame, ids, hNodup, hFound⟩
  · rintro ⟨hWhole, hIdSame, hXSame, hYSame, hScaleSame, ids, hNodup, hFound⟩
    rw [← hIdSame] at hReadId
    rw [← hXSame] at hReadX
    rw [← hYSame] at hReadY
    rw [← hScaleSame] at hReadScale
    exact ⟨hWhole.id.sameNumber hReadId hFieldId, hWhole.xPos.sameNumber hReadX hFieldX,
      hWhole.yPos.sameNumber hReadY hFieldY, sameNumber_of_float hWhole.scale hReadScale hFieldScale,
      ids, hNodup, (hPists ids).mpr ⟨hWhole.pists, hFound⟩⟩

end Reading

/-! ## What is loaded of the stored rows -/

/-- A pump is kept: it has its row and a nozzle to be joined with, its scale fits the text of
the statement, and the nozzles that are not new have their rows. -/
structure PumpKept (t : Mysql.Tables) (trk : Trk) : Prop where
  pump : HasPump t trk.idTrk
  joined : pistIds t trk.idTrk ≠ [] ∨ ∃ pist ∈ trk.pists, pist.idPist = 0
  scale : HasDecimals 6 trk.scale
  pists : ∀ pist ∈ trk.pists, pist.idPist ≠ 0 → pist.idPist ∈ pistIds t trk.idTrk

/-- The components of a color are bytes. -/
def Color.bytes (color : Color) : Prop :=
  (0 ≤ color.r ∧ color.r < 256) ∧ (0 ≤ color.g ∧ color.g < 256) ∧ (0 ≤ color.b ∧ color.b < 256)

section Loaded

variable {t : Mysql.Tables} {form : SettingsForm} {station : Int} {trks : List Trk} {got trk : Trk}

/-- A stored product is loaded exactly if it had its row. -/
theorem mem_loadedTovars_iff {tovar : Tovar} (hNodup : (form.tovars.map Tovar.idTovar).Nodup)
    (hMem : tovar ∈ form.tovars) (hPrice : HasDecimals 2 tovar.price) (hColor : tovar.color.bytes) :
    tovar ∈ loadedTovars (form.rows t) ↔ HasTovar t tovar.idTovar := by
  constructor
  · intro hLoaded
    obtain ⟨row, hRow, rfl⟩ := List.mem_map.mp hLoaded
    obtain ⟨old, hOld, rfl⟩ := List.mem_map.mp (List.mem_mergeSort.mp hRow)
    exact ⟨old, hOld, (keyed_storeTovarRow.rowKey_updated form.tovars old).symm⟩
  · rintro ⟨old, hOld, hId⟩
    have hStored := keyed_storeTovarRow.updated_of_mem hNodup hMem hId
    have hRow : storeTovarRow tovar old ∈ (form.rows t).tovar := hStored ▸ List.mem_map_of_mem hOld
    have hSame : loadTovarPrice (storeTovarRow tovar old) = tovar := by
      have hUnpack := unpackColor_getRgb hColor.1 hColor.2.1 hColor.2.2
      rw [storeTovarRow, if_pos hId, fixedValue_eq_self_iff.mpr hPrice, hId]
      unfold loadTovarPrice loadTovar
      simp only [hUnpack]
    exact List.mem_map.mpr ⟨_, List.mem_mergeSort.mpr hRow, hSame⟩

/-- And so is a stored tank, whatever its product. -/
theorem mem_loadedTanks_iff {tank : Tank} (hNodup : (form.tanks.map Tank.idTank).Nodup)
    (hMem : tank ∈ form.tanks) (hBare : tank.tovar = none) :
    (∃ got ∈ loadedTanks (form.rows t), { got with tovar := none } = tank) ↔
      HasTankRow t tank.idTank := by
  constructor
  · rintro ⟨got, hLoaded, rfl⟩
    obtain ⟨row, hRow, rfl⟩ := List.mem_map.mp hLoaded
    obtain ⟨old, hOld, rfl⟩ := List.mem_map.mp (List.mem_mergeSort.mp hRow)
    exact ⟨old, hOld, (keyed_storeTankRow.rowKey_updated form.tanks old).symm⟩
  · rintro ⟨old, hOld, hId⟩
    have hStored := keyed_storeTankRow.updated_of_mem hNodup hMem hId
    have hRow : storeTankRow tank old ∈ (form.rows t).tank := hStored ▸ List.mem_map_of_mem hOld
    refine ⟨_, List.mem_map_of_mem (List.mem_mergeSort.mpr hRow), ?_⟩
    rw [storeTankRow, if_pos hId]
    unfold loadTankTovar loadTank
    simp only [hId]
    rw [← hBare]

/-- The rows of the nozzles of a loaded pump are all there. -/
theorem loadedTrk_full (hLoad : loadedTrks station t = some trks) (hMem : got ∈ trks)
    {row : Mysql.TrkRow} (hRow : row ∈ t.trk) (hId : row.idTrk = got.idTrk) :
    ∃ pist ∈ got.pists, pist.idPist = row.idPist ∧ pist.idTank = row.idTank := by
  obtain ⟨⟨com, hCom, hStation, hSame, -⟩, -⟩ := loadedTrk_rows hLoad hMem
  obtain ⟨s, rfl, hLoop⟩ := loadTrks_spec hLoad
  have hJoined : (⟨com.idTrk, com.xPos, com.yPos, com.scale, row.idPist, row.idTank⟩ : PistRow) ∈
      pistRows station t :=
    mem_pistRows.mpr ⟨com, hCom, hStation, row, hRow, hId.trans hSame, rfl⟩
  exact hLoop.full (sortedRows_pistRows station t) got hMem _ hJoined hSame.symm

/-- A pump with a nozzle is loaded, and a loaded one has a nozzle. -/
theorem loadedTrk_exists (hLoad : loadedTrks station t = some trks) {com : Mysql.ComTrkRow}
    {row : Mysql.TrkRow} (hCom : com ∈ t.comTrk) (hStation : com.idAzs = station)
    (hRow : row ∈ t.trk) (hId : row.idTrk = com.idTrk) : ∃ got ∈ trks, got.idTrk = com.idTrk := by
  obtain ⟨s, rfl, hLoop⟩ := loadTrks_spec hLoad
  exact hLoop.covers _ (mem_pistRows.mpr ⟨com, hCom, hStation, row, hRow, hId, rfl⟩)

theorem loadedTrk_joined (hLoad : loadedTrks station t = some trks) (hMem : got ∈ trks) :
    ∃ row ∈ t.trk, row.idTrk = got.idTrk := by
  obtain ⟨s, rfl, hLoop⟩ := loadTrks_spec hLoad
  obtain ⟨joined, hJoined, hId, -⟩ := (hLoop.built got hMem).head
  obtain ⟨com, -, -, row, hRow, hCom, rfl⟩ := mem_pistRows.mp hJoined
  exact ⟨row, hRow, hCom.trans hId.symm⟩

/-- The ids of the nozzles of a stored pump. -/
theorem pistIds_rows (hNodup : (form.trks.map Trk.idTrk).Nodup) (hMem : trk ∈ form.trks) :
    pistIds (form.rows t) trk.idTrk =
      pistIds t trk.idTrk ++ freshIds (maxIdPist trk.idTrk t.trk) 0 trk.pists := by
  unfold pistIds
  show ((updated storeNozzles form.trks t.trk).filter _).map _ = _
  rw [filter_updated_storeNozzles hNodup hMem, storeNozzles, maxIdPist_filter,
    map_idPist_storePists]

theorem mem_pistIds_iff {id idTrk : Int} :
    id ∈ pistIds t idTrk ↔ ∃ row ∈ t.trk, row.idTrk = idTrk ∧ row.idPist = id := by
  unfold pistIds
  simp only [List.mem_map, List.mem_filter, decide_eq_true_eq, and_assoc]

/-- A pump of a stored table with the values of its row. -/
theorem comTrk_rows (hNodup : (form.trks.map Trk.idTrk).Nodup) (hMem : trk ∈ form.trks)
    {com : Mysql.ComTrkRow} (hCom : com ∈ (form.rows t).comTrk) (hId : com.idTrk = trk.idTrk) :
    HasPump t trk.idTrk ∧ com.xPos = trk.xPos ∧ com.yPos = trk.yPos ∧
      com.scale = fixedValue 6 trk.scale := by
  obtain ⟨old, hOld, rfl⟩ := List.mem_map.mp hCom
  have hOldId : old.idTrk = trk.idTrk :=
    (keyed_storeComTrkRow.rowKey_updated form.trks old).symm.trans hId
  rw [keyed_storeComTrkRow.updated_of_mem hNodup hMem hOldId, storeComTrkRow, if_pos hOldId]
  exact ⟨⟨old, hOld, hOldId⟩, rfl, rfl, rfl⟩

/-- A pump that is found was kept. -/
theorem pumpKept_of_found (hIds : DistinctIds t) (hNodup : (form.trks.map Trk.idTrk).Nodup)
    (hMem : trk ∈ form.trks) (hLoad : loadedTrks station (form.rows t) = some trks)
    (hGot : got ∈ trks) (hFound : FoundTrk (pistIds t trk.idTrk) got trk) : PumpKept t trk := by
  obtain ⟨⟨com, hCom, -, hComId, -, -, hComScale⟩, hPists⟩ := loadedTrk_rows hLoad hGot
  obtain ⟨hPump, -, -, hScale⟩ := comTrk_rows hNodup hMem hCom (hComId.symm.trans hFound.id)
  refine ⟨hPump, ?_, ?_, ?_⟩
  · -- the pump has been joined with a nozzle
    obtain ⟨row, hRow, hRowId⟩ := loadedTrk_joined hLoad hGot
    have hIn : row.idPist ∈ pistIds (form.rows t) trk.idTrk :=
      mem_pistIds_iff.mpr ⟨row, hRow, hRowId.trans hFound.id, rfl⟩
    rw [pistIds_rows hNodup hMem] at hIn
    rcases List.mem_append.mp hIn with hBefore | hFresh
    · exact Or.inl (List.ne_nil_of_mem hBefore)
    · have hLength := length_freshIds (maxIdPist trk.idTrk t.trk) 0 trk.pists
      obtain ⟨pist, hPist⟩ : ∃ pist, pist ∈ trk.pists.filter (·.idPist = 0) :=
        List.exists_mem_of_length_pos (hLength ▸ List.length_pos_of_mem hFresh)
      obtain ⟨hIn, hZero⟩ := List.mem_filter.mp hPist
      exact Or.inr ⟨pist, hIn, of_decide_eq_true hZero⟩
  · refine fixedValue_eq_self_iff.mp ?_
    rw [← hScale, ← hComScale, hFound.scale]
  · obtain ⟨ids, hDifferent, hAll⟩ := hFound.pists
    have hZero : (0 : Int) ∉ pistIds t trk.idTrk := fun hIn => by
      obtain ⟨row, hRow, -, hId⟩ := mem_pistIds_iff.mp hIn
      have hPositive := hIds.pistIds row hRow
      omega
    have hSub : ids ⊆ pistIds t trk.idTrk ++ freshIds (maxIdPist trk.idTrk t.trk) 0 trk.pists := by
      intro id hId
      rw [← pistIds_rows hNodup hMem]
      obtain ⟨pist, -, hOne⟩ := exists_mem_of_forall₂ hAll hId
      obtain ⟨other, hOther, hSame, -⟩ := hOne.found
      obtain ⟨row, hRow, hRowId, hRowPist, -⟩ := hPists other hOther
      exact mem_pistIds_iff.mpr ⟨row, hRow, hRowId.trans hFound.id, hRowPist.trans hSame⟩
    exact old_of_found hDifferent hZero hSub (hAll.imp fun _ _ hOne => hOne.own)

/-- A pump that was kept is found. -/
theorem exists_found_of_pumpKept (hStation : ∀ com ∈ t.comTrk, com.idAzs = station)
    (hNodup : (form.trks.map Trk.idTrk).Nodup) (hMem : trk ∈ form.trks)
    (hOld : (oldIds trk.pists).Nodup) (hLoad : loadedTrks station (form.rows t) = some trks)
    (hKept : PumpKept t trk) : ∃ got ∈ trks, FoundTrk (pistIds t trk.idTrk) got trk := by
  obtain ⟨com, hCom, hComId⟩ := hKept.pump
  have hRows : (form.rows t).trk.filter (·.idTrk = trk.idTrk) =
      storePists trk.idTrk (maxIdPist trk.idTrk t.trk) 0 trk.pists
        (t.trk.filter (·.idTrk = trk.idTrk)) := by
    have hFilter : (updated storeNozzles form.trks t.trk).filter (·.idTrk = trk.idTrk) = _ :=
      filter_updated_storeNozzles hNodup hMem
    rw [storeNozzles, maxIdPist_filter] at hFilter
    exact hFilter
  -- the pump has a nozzle behind the request
  have hNonempty : pistIds (form.rows t) trk.idTrk ≠ [] := by
    rw [pistIds_rows hNodup hMem]
    rcases hKept.joined with hBefore | ⟨pist, hPist, hZero⟩
    · simp [hBefore]
    · have hPositive : 0 < (trk.pists.filter (·.idPist = 0)).length :=
        List.length_pos_of_mem (List.mem_filter.mpr ⟨hPist, decide_eq_true hZero⟩)
      have hLength := length_freshIds (maxIdPist trk.idTrk t.trk) 0 trk.pists
      intro hNone
      rw [(List.append_eq_nil_iff.mp hNone).2] at hLength
      simp only [List.length_nil] at hLength
      omega
  obtain ⟨id, hId⟩ := List.exists_mem_of_ne_nil _ hNonempty
  obtain ⟨row, hRow, hRowId, -⟩ := mem_pistIds_iff.mp hId
  have hUpdated : updated storeComTrkRow form.trks com ∈ (form.rows t).comTrk :=
    List.mem_map_of_mem hCom
  have hUpdatedId : (updated storeComTrkRow form.trks com).idTrk = trk.idTrk :=
    (keyed_storeComTrkRow.rowKey_updated form.trks com).trans hComId
  have hAzs : (updated storeComTrkRow form.trks com).idAzs = station :=
    (idAzs_updated form.trks com).trans (hStation com hCom)
  obtain ⟨got, hGot, hGotId⟩ := loadedTrk_exists hLoad hUpdated hAzs hRow
    (hRowId.trans hUpdatedId.symm)
  have hGotId : got.idTrk = trk.idTrk := hGotId.trans hUpdatedId
  obtain ⟨⟨joined, hJoined, -, hJoinedId, hX, hY, hScale⟩, -⟩ := loadedTrk_rows hLoad hGot
  obtain ⟨-, hPostedX, hPostedY, hPostedScale⟩ := comTrk_rows hNodup hMem hJoined
    (hJoinedId.symm.trans hGotId)
  have hAtMost : ∀ id ∈ pistIds t trk.idTrk, id ≤ maxIdPist trk.idTrk t.trk := by
    intro id hIn
    obtain ⟨row, hRow, hRowId, rfl⟩ := mem_pistIds_iff.mp hIn
    exact le_maxIdPist hRow hRowId
  have hOldIds : ∀ id ∈ oldIds trk.pists, id ∈ pistIds t trk.idTrk := by
    intro id hIn
    obtain ⟨hPosted, hNe⟩ := List.mem_filter.mp hIn
    obtain ⟨pist, hPist, rfl⟩ := List.mem_map.mp hPosted
    exact hKept.pists pist hPist (of_decide_eq_true hNe)
  have hBound : ∀ id ∈ oldIds trk.pists, id ≤ maxIdPist trk.idTrk t.trk + 0 := fun id hIn => by
    have hLe := hAtMost id (hOldIds id hIn)
    omega
  refine ⟨got, hGot, hGotId, hX.trans hPostedX, hY.trans hPostedY, ?_,
    givenIds (maxIdPist trk.idTrk t.trk) 0 trk.pists, nodup_givenIds hOld hBound, ?_⟩
  · rw [hScale, hPostedScale]
    exact fixedValue_eq_self_iff.mpr hKept.scale
  · have hOldRows : ∀ id ∈ oldIds trk.pists, ∃ row ∈ t.trk.filter (·.idTrk = trk.idTrk),
        row.idTrk = trk.idTrk ∧ row.idPist = id := by
      intro id hIn
      obtain ⟨row, hRow, hRowId, hPist⟩ := mem_pistIds_iff.mp (hOldIds id hIn)
      exact ⟨row, List.mem_filter.mpr ⟨hRow, decide_eq_true hRowId⟩, hRowId, hPist⟩
    refine (storedAs_givenIds hOld hBound hOldRows).imp fun pist id hOne => ⟨?_, ?_⟩
    · have hIn := hOne.1
      rw [← hRows] at hIn
      exact loadedTrk_full hLoad hGot (List.mem_filter.mp hIn).1 hGotId.symm
    · refine hOne.2.imp_right fun hFresh => ⟨hFresh.1, fun hIn => ?_⟩
      have hLe := hAtMost id hIn
      have hLess := hFresh.2
      omega

end Loaded

/-! ## Bodies that are stored -/

/-- The ids in the arrays are different, the names have no quotes and backslashes, the prices
two decimals, and the colors are bytes. -/
structure Postable (json : Json) : Prop where
  tovars : ((elementsIn json "tovars").filterMap (numberIn · "id_tovar")).Nodup
  tanks : ((elementsIn json "tanks").filterMap (numberIn · "id_tank")).Nodup
  trks : ((elementsIn json "trks").filterMap (numberIn · "id_trk")).Nodup
  pists : ∀ trk ∈ elementsIn json "trks",
    (((elementsIn trk "pists").filterMap (numberIn · "id_pist")).filter (· ≠ 0)).Nodup
  plain : ∀ x ∈ elementsIn json "tovars", (jsonToTovar x).plain = true
  prices : ∀ x ∈ elementsIn json "tovars", HasDecimals 2 (jsonToTovar x).price
  colors : ∀ x ∈ elementsIn json "tovars", (jsonToTovar x).color.bytes

/-- The names of a product are UTF-8. -/
def Tovar.NamesUtf8 (tovar : Tovar) : Prop :=
  Json.Utf8 tovar.name ∧ Json.Utf8 tovar.nameP ∧ Json.Utf8 tovar.namePF ∧ Json.Utf8 tovar.namePV

section Posted

variable {t : Mysql.Tables} {json : Json} {form : SettingsForm} {xs : List Json}

/-- Different numbers are read as different ids. -/
theorem nodup_map_of_numbers {number : Json → Option Rat} {read : Json → Int}
    (hSame : ∀ x ∈ xs, number x = some (read x : Rat)) (hNodup : (xs.filterMap number).Nodup) :
    (xs.map read).Nodup := by
  have hNumbers : xs.filterMap number = (xs.map read).map fun n : Int => (n : Rat) := by
    rw [List.map_map]
    exact (List.filterMap_congr hSame).trans (congrFun List.filterMap_eq_map' xs)
  rw [hNumbers] at hNodup
  exact hNodup.of_map _

/-- What is stored of a body consists of elements that could be read. -/
theorem read_of_setForm (hForm : setForm json = some form) :
    (form.tovars = (elementsIn json "tovars").map jsonToTovar ∧
      form.tanks = (elementsIn json "tanks").map jsonToTank ∧
      form.trks = (elementsIn json "trks").map jsonToTrk) ∧
    (∀ x ∈ elementsIn json "tovars", readTovar x = some (jsonToTovar x)) ∧
      (∀ x ∈ elementsIn json "tanks", readTank x = some (jsonToTank x)) ∧
      ∀ x ∈ elementsIn json "trks", readTrk x = some (jsonToTrk x) := by
  obtain ⟨hPosted, hRead⟩ := setForm_eq_some_iff.mp hForm
  obtain ⟨tovars, hTovars, hPosted⟩ := Option.bind_eq_some_iff.mp hPosted
  obtain ⟨tanks, hTanks, hPosted⟩ := Option.bind_eq_some_iff.mp hPosted
  obtain ⟨trks, hTrks, hPosted⟩ := Option.bind_eq_some_iff.mp hPosted
  obtain rfl := Option.some.inj hPosted
  unfold elementsIn
  rw [hTovars, hTanks, hTrks]
  simp only [SettingsForm.unread, not_or, List.any_eq_true, not_exists, not_and, List.mem_map,
    forall_exists_index, and_imp, forall_apply_eq_imp_iff₂, decide_eq_true_eq] at hRead
  obtain ⟨hTovar, hTank, hTrk⟩ := hRead
  refine ⟨⟨rfl, rfl, rfl⟩, fun x hMem => ?_, fun x hMem => ?_, fun x hMem => ?_⟩
  · have hId := hTovar x hMem
    unfold jsonToTovar at *
    cases hSome : readTovar x with
    | none =>
        rw [hSome] at hId
        exact absurd rfl hId
    | some tovar => rfl
  · have hId := hTank x hMem
    unfold jsonToTank at *
    cases hSome : readTank x with
    | none =>
        rw [hSome] at hId
        exact absurd rfl hId
    | some tank => rfl
  · have hId := hTrk x hMem
    unfold jsonToTrk at *
    cases hSome : readTrk x with
    | none =>
        rw [hSome] at hId
        exact absurd rfl hId
    | some trk => rfl

theorem idTovar_of_whole {x : Json} (hRead : readTovar x = some (jsonToTovar x))
    (hWhole : WholeIn x "id_tovar") :
    numberIn x "id_tovar" = some ((jsonToTovar x).idTovar : Rat) := by
  obtain ⟨idTovar, hId, hRest⟩ := Option.bind_eq_some_iff.mp hRead
  obtain ⟨name, -, hRest⟩ := Option.bind_eq_some_iff.mp hRest
  obtain ⟨nameP, -, hRest⟩ := Option.bind_eq_some_iff.mp hRest
  obtain ⟨namePF, -, hRest⟩ := Option.bind_eq_some_iff.mp hRest
  obtain ⟨namePV, -, hRest⟩ := Option.bind_eq_some_iff.mp hRest
  obtain ⟨price, -, hRest⟩ := Option.bind_eq_some_iff.mp hRest
  obtain ⟨color, -, hRest⟩ := Option.bind_eq_some_iff.mp hRest
  obtain ⟨r, -, hRest⟩ := Option.bind_eq_some_iff.mp hRest
  obtain ⟨g, -, hRest⟩ := Option.bind_eq_some_iff.mp hRest
  obtain ⟨b, -, hRest⟩ := Option.bind_eq_some_iff.mp hRest
  rw [← Option.some.inj hRest]
  exact hWhole.numberIn_eq hId

theorem idTank_of_whole {x : Json} (hRead : readTank x = some (jsonToTank x))
    (hWhole : WholeIn x "id_tank") :
    numberIn x "id_tank" = some ((jsonToTank x).idTank : Rat) := by
  obtain ⟨idTank, hId, hRest⟩ := Option.bind_eq_some_iff.mp hRead
  obtain ⟨idTovar, -, hRest⟩ := Option.bind_eq_some_iff.mp hRest
  obtain ⟨remain, -, hRest⟩ := Option.bind_eq_some_iff.mp hRest
  obtain ⟨volume, -, hRest⟩ := Option.bind_eq_some_iff.mp hRest
  rw [← Option.some.inj hRest]
  exact hWhole.numberIn_eq hId

/-- The numbers of nozzles that are read as they are. -/
theorem numbers_of_readPists {pists : List Pist} (hWhole : ∀ x ∈ xs, WholePist x)
    (hRead : xs.mapM readPistValue = some pists) :
    xs.filterMap (numberIn · "id_pist") = (pists.map (·.idPist)).map fun n : Int => (n : Rat) := by
  induction xs generalizing pists with
  | nil =>
      obtain rfl := Option.some.inj hRead
      rfl
  | cons x xs ih =>
      rw [List.mapM_cons] at hRead
      obtain ⟨pist, hHead, hRead⟩ := Option.bind_eq_some_iff.mp hRead
      obtain ⟨rest, hRest, hRead⟩ := Option.bind_eq_some_iff.mp hRead
      obtain rfl := Option.some.inj hRead
      obtain ⟨idPist, hId, hHead⟩ := Option.bind_eq_some_iff.mp hHead
      obtain ⟨idTank, -, hHead⟩ := Option.bind_eq_some_iff.mp hHead
      obtain rfl := Option.some.inj hHead
      have hNumber := (hWhole x List.mem_cons_self).id.numberIn_eq hId
      have hTail := ih (fun other hMem => hWhole other (List.mem_cons_of_mem _ hMem)) hRest
      simp only [List.filterMap_cons, hNumber, hTail, List.map_cons]

/-- The posted nozzles that are not new have different ids. -/
theorem nodup_oldIds {x : Json} (hRead : readTrk x = some (jsonToTrk x)) (hWhole : WholeTrk x)
    (hNodup : (((elementsIn x "pists").filterMap (numberIn · "id_pist")).filter (· ≠ 0)).Nodup) :
    (oldIds (jsonToTrk x).pists).Nodup := by
  rw [numbers_of_readPists hWhole.pists (pists_of_readTrk hRead), List.filter_map] at hNodup
  have hOld : oldIds (jsonToTrk x).pists = ((jsonToTrk x).pists.map (·.idPist)).filter
      ((fun q : Rat => decide (q ≠ 0)) ∘ fun n : Int => (n : Rat)) := by
    unfold oldIds
    refine List.filter_congr fun n _ => ?_
    simp
  rw [hOld]
  exact hNodup.of_map _

/-- Whole numbers are all that the second condition relies on. -/
theorem forall_iff_of_whole {shown whole found kept : Json → Prop}
    (hShown : ∀ x ∈ xs, shown x ↔ whole x ∧ found x)
    (hFound : (∀ x ∈ xs, whole x) → ∀ x ∈ xs, (found x ↔ kept x)) :
    (∀ x ∈ xs, shown x) ↔ ∀ x ∈ xs, whole x ∧ kept x := by
  constructor
  · intro hAll x hMem
    have hWhole : ∀ x ∈ xs, whole x := fun x hIn => ((hShown x hIn).mp (hAll x hIn)).1
    exact ⟨hWhole x hMem, (hFound hWhole x hMem).mp ((hShown x hMem).mp (hAll x hMem)).2⟩
  · intro hAll x hMem
    have hWhole : ∀ x ∈ xs, whole x := fun x hIn => (hAll x hIn).1
    exact (hShown x hMem).mpr ⟨hWhole x hMem, (hFound hWhole x hMem).mpr (hAll x hMem).2⟩

/-- The posted products are shown exactly if their rows were there. -/
theorem showsTovars_iff (hTovars : form.tovars = xs.map jsonToTovar)
    (hRead : ∀ x ∈ xs, readTovar x = some (jsonToTovar x))
    (hNodup : (xs.filterMap (numberIn · "id_tovar")).Nodup)
    (hPrices : ∀ x ∈ xs, HasDecimals 2 (jsonToTovar x).price)
    (hColors : ∀ x ∈ xs, (jsonToTovar x).color.bytes) (hColumns : Int32Columns (form.rows t)) :
    (∀ x ∈ xs, ∃ y ∈ (loadedTovars (form.rows t)).map tovarJson, ShowsTovar x y) ↔
      ∀ x ∈ xs, WholeTovar x ∧ HasTovar t (jsonToTovar x).idTovar := by
  have hOne : ∀ x ∈ xs, (∃ y ∈ (loadedTovars (form.rows t)).map tovarJson, ShowsTovar x y) ↔
      WholeTovar x ∧ jsonToTovar x ∈ loadedTovars (form.rows t) := by
    intro x hMem
    have hShows : ∀ tovar ∈ loadedTovars (form.rows t),
        ShowsTovar x (tovarJson tovar) ↔ WholeTovar x ∧ jsonToTovar x = tovar := by
      intro tovar hLoaded
      obtain ⟨row, hRow, rfl⟩ := List.mem_map.mp hLoaded
      obtain ⟨hR, hG, hB⟩ := unpackColor_bytes row.color
      exact showsTovar_iff (hColumns.tovars row (List.mem_mergeSort.mp hRow)) (isInt32_of_byte hR)
        (isInt32_of_byte hG) (isInt32_of_byte hB) (hRead x hMem)
    constructor
    · rintro ⟨y, hY, hShown⟩
      obtain ⟨tovar, hLoaded, rfl⟩ := List.mem_map.mp hY
      obtain ⟨hWhole, hSame⟩ := (hShows tovar hLoaded).mp hShown
      exact ⟨hWhole, hSame ▸ hLoaded⟩
    · rintro ⟨hWhole, hLoaded⟩
      exact ⟨_, List.mem_map_of_mem hLoaded, (hShows _ hLoaded).mpr ⟨hWhole, rfl⟩⟩
  -- whole ids are different ids, and each product has its own row
  have hHas : (∀ x ∈ xs, WholeTovar x) → ∀ x ∈ xs,
      (jsonToTovar x ∈ loadedTovars (form.rows t) ↔ HasTovar t (jsonToTovar x).idTovar) := by
    intro hWhole x hMem
    have hIds : (form.tovars.map Tovar.idTovar).Nodup := by
      rw [hTovars, List.map_map]
      exact nodup_map_of_numbers (fun x hIn => idTovar_of_whole (hRead x hIn) (hWhole x hIn).id) hNodup
    exact mem_loadedTovars_iff hIds (hTovars ▸ List.mem_map_of_mem hMem) (hPrices x hMem)
      (hColors x hMem)
  exact forall_iff_of_whole hOne hHas

/-- And so are the tanks. -/
theorem showsTanks_iff (hTanks : form.tanks = xs.map jsonToTank)
    (hRead : ∀ x ∈ xs, readTank x = some (jsonToTank x))
    (hNodup : (xs.filterMap (numberIn · "id_tank")).Nodup) (hColumns : Int32Columns (form.rows t)) :
    (∀ x ∈ xs, ∃ y ∈ (loadedTanks (form.rows t)).map tankJson, ShowsTank x y) ↔
      ∀ x ∈ xs, WholeTank x ∧ HasTankRow t (jsonToTank x).idTank := by
  have hOne : ∀ x ∈ xs, (∃ y ∈ (loadedTanks (form.rows t)).map tankJson, ShowsTank x y) ↔
      WholeTank x ∧ ∃ got ∈ loadedTanks (form.rows t), { got with tovar := none } = jsonToTank x := by
    intro x hMem
    have hShows : ∀ tank ∈ loadedTanks (form.rows t), ShowsTank x (tankJson tank) ↔
        WholeTank x ∧ jsonToTank x = { tank with tovar := none } := by
      intro tank hLoaded
      obtain ⟨row, hRow, rfl⟩ := List.mem_map.mp hLoaded
      obtain ⟨hId, hTovar, hVolume, hRemain⟩ := hColumns.tanks row (List.mem_mergeSort.mp hRow)
      exact showsTank_iff hId hTovar hVolume hRemain (hRead x hMem)
    constructor
    · rintro ⟨y, hY, hShown⟩
      obtain ⟨tank, hLoaded, rfl⟩ := List.mem_map.mp hY
      obtain ⟨hWhole, hSame⟩ := (hShows tank hLoaded).mp hShown
      exact ⟨hWhole, tank, hLoaded, hSame.symm⟩
    · rintro ⟨hWhole, tank, hLoaded, hSame⟩
      exact ⟨_, List.mem_map_of_mem hLoaded, (hShows _ hLoaded).mpr ⟨hWhole, hSame.symm⟩⟩
  have hHas : (∀ x ∈ xs, WholeTank x) → ∀ x ∈ xs,
      ((∃ got ∈ loadedTanks (form.rows t), { got with tovar := none } = jsonToTank x) ↔
        HasTankRow t (jsonToTank x).idTank) := by
    intro hWhole x hMem
    have hIds : (form.tanks.map Tank.idTank).Nodup := by
      rw [hTanks, List.map_map]
      exact nodup_map_of_numbers (fun x hIn => idTank_of_whole (hRead x hIn) (hWhole x hIn).id) hNodup
    have hBare : (jsonToTank x).tovar = none := by
      obtain ⟨idTank, -, hRest⟩ := Option.bind_eq_some_iff.mp (hRead x hMem)
      obtain ⟨idTovar, -, hRest⟩ := Option.bind_eq_some_iff.mp hRest
      obtain ⟨remain, -, hRest⟩ := Option.bind_eq_some_iff.mp hRest
      obtain ⟨volume, -, hRest⟩ := Option.bind_eq_some_iff.mp hRest
      rw [← Option.some.inj hRest]
    exact mem_loadedTanks_iff hIds (hTanks ▸ List.mem_map_of_mem hMem) hBare
  exact forall_iff_of_whole hOne hHas

/-- The pumps are shown exactly if they are kept. -/
theorem showsTrks_iff {station : Int} {trks : List Trk} (hDistinct : DistinctIds t)
    (hStation : ∀ com ∈ t.comTrk, com.idAzs = station) (hTrks : form.trks = xs.map jsonToTrk)
    (hRead : ∀ x ∈ xs, readTrk x = some (jsonToTrk x))
    (hNodup : (xs.filterMap (numberIn · "id_trk")).Nodup)
    (hPists : ∀ x ∈ xs,
      (((elementsIn x "pists").filterMap (numberIn · "id_pist")).filter (· ≠ 0)).Nodup)
    (hColumns : Int32Columns (form.rows t)) (hLoad : loadedTrks station (form.rows t) = some trks) :
    (∀ x ∈ xs, ∃ y ∈ trks.map trkJson, ShowsTrk (pistIds t (jsonToTrk x).idTrk) x y) ↔
      ∀ x ∈ xs, WholeTrk x ∧ PumpKept t (jsonToTrk x) := by
  have hOne : ∀ x ∈ xs, (∃ y ∈ trks.map trkJson, ShowsTrk (pistIds t (jsonToTrk x).idTrk) x y) ↔
      WholeTrk x ∧ ∃ got ∈ trks, FoundTrk (pistIds t (jsonToTrk x).idTrk) got (jsonToTrk x) := by
    intro x hMem
    have hShows : ∀ got ∈ trks, ShowsTrk (pistIds t (jsonToTrk x).idTrk) x (trkJson got) ↔
        WholeTrk x ∧ FoundTrk (pistIds t (jsonToTrk x).idTrk) got (jsonToTrk x) := by
      intro got hGot
      obtain ⟨⟨com, hCom, -, hId, hX, hY, -⟩, hNozzles⟩ := loadedTrk_rows hLoad hGot
      obtain ⟨hInt, hIntX, hIntY⟩ := hColumns.pumps com hCom
      refine showsTrk_iff (hId ▸ hInt) (hX ▸ hIntX) (hY ▸ hIntY) (fun pist hPist => ?_) (hRead x hMem)
      obtain ⟨row, hRow, -, hPistId, hTank⟩ := hNozzles pist hPist
      obtain ⟨hIntPist, hIntTank⟩ := hColumns.pists row hRow
      exact ⟨hPistId ▸ hIntPist, hTank ▸ hIntTank⟩
    constructor
    · rintro ⟨y, hY, hShown⟩
      obtain ⟨got, hGot, rfl⟩ := List.mem_map.mp hY
      obtain ⟨hWhole, hFound⟩ := (hShows got hGot).mp hShown
      exact ⟨hWhole, got, hGot, hFound⟩
    · rintro ⟨hWhole, got, hGot, hFound⟩
      exact ⟨_, List.mem_map_of_mem hGot, (hShows got hGot).mpr ⟨hWhole, hFound⟩⟩
  have hKept : (∀ x ∈ xs, WholeTrk x) → ∀ x ∈ xs,
      ((∃ got ∈ trks, FoundTrk (pistIds t (jsonToTrk x).idTrk) got (jsonToTrk x)) ↔
        PumpKept t (jsonToTrk x)) := by
    intro hWhole x hMem
    have hIds : (form.trks.map Trk.idTrk).Nodup := by
      rw [hTrks, List.map_map]
      exact nodup_map_of_numbers (fun x hIn =>
        (hWhole x hIn).id.numberIn_eq (fields_of_readTrk (hRead x hIn)).1) hNodup
    have hIn : jsonToTrk x ∈ form.trks := hTrks ▸ List.mem_map_of_mem hMem
    constructor
    · rintro ⟨got, hGot, hFound⟩
      exact pumpKept_of_found hDistinct hIds hIn hLoad hGot hFound
    · exact exists_found_of_pumpKept hStation hIds hIn
        (nodup_oldIds (hRead x hMem) (hWhole x hMem) (hPists x hMem)) hLoad
  exact forall_iff_of_whole hOne hKept

/-- The names behind the request: the posted ones and those of the other rows. -/
theorem namesWritten_rows_iff (hNodup : (form.tovars.map Tovar.idTovar).Nodup)
    (hHas : ∀ tovar ∈ form.tovars, HasTovar t tovar.idTovar) :
    NamesWritten (form.rows t) ↔ (∀ tovar ∈ form.tovars, tovar.NamesUtf8) ∧
      ∀ row ∈ t.tovar, (∀ tovar ∈ form.tovars, row.idTovar ≠ tovar.idTovar) →
        (loadTovar row).NamesUtf8 := by
  constructor
  · intro hNames
    constructor
    · intro tovar hMem
      obtain ⟨row, hRow, hId⟩ := hHas tovar hMem
      have hStored := hNames _ (List.mem_map_of_mem hRow)
      rw [keyed_storeTovarRow.updated_of_mem hNodup hMem hId, storeTovarRow, if_pos hId] at hStored
      exact hStored
    · intro row hRow hOther
      have hStored := hNames _ (List.mem_map_of_mem hRow)
      rw [keyed_storeTovarRow.updated_of_ne hOther] at hStored
      exact hStored
  · rintro ⟨hPosted, hOthers⟩ stored hStored
    obtain ⟨row, hRow, rfl⟩ := List.mem_map.mp hStored
    by_cases hOther : ∀ tovar ∈ form.tovars, row.idTovar ≠ tovar.idTovar
    · rw [keyed_storeTovarRow.updated_of_ne hOther]
      exact hOthers row hRow hOther
    · push Not at hOther
      obtain ⟨tovar, hMem, hId⟩ := hOther
      rw [keyed_storeTovarRow.updated_of_mem hNodup hMem hId, storeTovarRow, if_pos hId]
      exact hPosted tovar hMem

end Posted

/-! ## The exchange -/

/-- What a body has to meet so that the tables keep it: the numbers are read as they are,
products, tanks and pumps have their rows, and all names can be written. -/
structure SettingsKept (t : Mysql.Tables) (json : Json) : Prop where
  sizes : loadedSizes t ≠ none
  tovars : ∀ x ∈ elementsIn json "tovars", WholeTovar x ∧ HasTovar t (jsonToTovar x).idTovar
  tanks : ∀ x ∈ elementsIn json "tanks", WholeTank x ∧ HasTankRow t (jsonToTank x).idTank
  trks : ∀ x ∈ elementsIn json "trks", WholeTrk x ∧ PumpKept t (jsonToTrk x)
  names : ∀ x ∈ elementsIn json "tovars", (jsonToTovar x).NamesUtf8
  otherNames : ∀ row ∈ t.tovar,
    (∀ x ∈ elementsIn json "tovars", row.idTovar ≠ (jsonToTovar x).idTovar) →
      (loadTovar row).NamesUtf8

/-- `api_settings_get` returns what was posted over some tables. -/
def ReturnsPosted (pl : Platform) (t : Mysql.Tables) (json : Json) (w : World) : Prop :=
  ∃ ctx next got, settingsContext pl w = .ok ctx next ∧
    Admin.apiSettingsGet pl w = .ok ⟨⟩ got ∧ pl.dump ctx = some got.response.body ∧
      ShowsPosted t json ctx

section Exchange

variable {pl : Platform} {con : Connection} {w : World} {json : Json} {t before : Mysql.Tables}

/-- The values of the reply. -/
theorem elementsIn_loadedContext (t : Mysql.Tables) (trks : List Trk) :
    elementsIn (loadedContext t trks) "tovars" = (loadedTovars t).map tovarJson ∧
      elementsIn (loadedContext t trks) "tanks" = (loadedTanks t).map tankJson ∧
      elementsIn (loadedContext t trks) "trks" = trks.map trkJson := by
  obtain ⟨hTovars, hTanks, hTrks⟩ := field_settings ((loadedTovars t).map tovarJson)
    ((loadedTanks t).map tankJson) (trks.map trkJson)
  unfold elementsIn loadedContext
  rw [arrayElements_of_field hTovars, arrayElements_of_field hTanks, arrayElements_of_field hTrks]
  exact ⟨rfl, rfl, rfl⟩

theorem showsPosted_iff (trks : List Trk) :
    ShowsPosted before json (loadedContext t trks) ↔
      (∀ x ∈ elementsIn json "tovars", ∃ y ∈ (loadedTovars t).map tovarJson, ShowsTovar x y) ∧
      (∀ x ∈ elementsIn json "tanks", ∃ y ∈ (loadedTanks t).map tankJson, ShowsTank x y) ∧
      ∀ x ∈ elementsIn json "trks", ∃ y ∈ trks.map trkJson,
        ShowsTrk (pistIds before (jsonToTrk x).idTrk) x y := by
  obtain ⟨hTovars, hTanks, hTrks⟩ := elementsIn_loadedContext t trks
  constructor
  · intro hShows
    have hTovar := hShows.tovars
    have hTank := hShows.tanks
    have hTrk := hShows.trks
    rw [hTovars] at hTovar
    rw [hTanks] at hTank
    rw [hTrks] at hTrk
    exact ⟨hTovar, hTank, hTrk⟩
  · rintro ⟨hTovar, hTank, hTrk⟩
    constructor
    · rw [hTovars]
      exact hTovar
    · rw [hTanks]
      exact hTank
    · rw [hTrks]
      exact hTrk

/-- The reader needs a screen size that it can read and names that it can write. -/
theorem returnsPosted_iff {trks : List Trk} (hServes : Serves con w)
    (hLoad : loadedTrks (w.station pl) (w.tables con) = some trks)
    (hDump : ∀ value, pl.dump value ≠ none ↔ value.Dumpable) :
    ReturnsPosted pl before json w ↔ loadedSizes (w.tables con) ≠ none ∧
      NamesWritten (w.tables con) ∧ ShowsPosted before json (loadedContext (w.tables con) trks) := by
  cases hSizes : loadedSizes (w.tables con) with
  | none =>
      refine iff_of_false ?_ fun hCond => hCond.1 rfl
      rintro ⟨ctx, next, -, hRun, -⟩
      exact settingsContext_ne_ok hServes (Or.inl hSizes) ctx next hRun
  | some sizes =>
      obtain ⟨after, hContext, -⟩ := settingsContext_serves pl hServes hSizes hLoad
      obtain ⟨next, -, hRun⟩ := apiSettingsGet_run hServes hSizes hLoad
      rw [← dumpable_loadedContext_iff trks, ← hDump]
      constructor
      · rintro ⟨ctx, other, got, hOk, -, hText, hShows⟩
        rw [hContext] at hOk
        obtain ⟨rfl, rfl⟩ := EStateM.Result.ok.inj hOk
        rw [hText]
        exact ⟨Option.some_ne_none _, Option.some_ne_none _, hShows⟩
      · rintro ⟨-, hWritten, hShows⟩
        obtain ⟨text, hText⟩ := Option.ne_none_iff_exists'.mp hWritten
        obtain ⟨got, hGot⟩ : ∃ got, replyJson pl (loadedContext (w.tables con) trks) next =
            .ok ⟨⟩ got := by
          rw [replyJson, hText, bind_of_ok (orThrow_some_run text next)]
          exact ⟨_, rfl⟩
        obtain ⟨other, hOther, hBody, -⟩ := replyJson_eq_ok hGot
        exact ⟨_, after, got, hContext, hRun.trans hGot, hOther.trans (congrArg some hBody.symm),
          hShows⟩

/-- A product that is returned has a row. -/
theorem ReturnsPosted.tovarRow (hServes : Serves con w) (hReturns : ReturnsPosted pl before json w) :
    ∀ x ∈ elementsIn json "tovars",
      ∃ row ∈ (w.tables con).tovar, numberIn x "id_tovar" = some (row.idTovar : Rat) := by
  obtain ⟨ctx, next, got, hContext, -, -, hShows⟩ := hReturns
  have hSome : ¬ (loadedSizes (w.tables con) = none ∨
      loadedTrks (w.station pl) (w.tables con) = none) :=
    fun hNone => settingsContext_ne_ok hServes hNone ctx next hContext
  obtain ⟨hSizes, hLoad⟩ := not_or.mp hSome
  obtain ⟨sizes, hSizes⟩ := Option.ne_none_iff_exists'.mp hSizes
  obtain ⟨trks, hLoad⟩ := Option.ne_none_iff_exists'.mp hLoad
  obtain ⟨after, hRun, -⟩ := settingsContext_serves pl hServes hSizes hLoad
  rw [hRun] at hContext
  obtain ⟨rfl, -⟩ := EStateM.Result.ok.inj hContext
  intro x hMem
  obtain ⟨y, hY, hShown⟩ := (showsPosted_iff trks).mp hShows |>.1 x hMem
  obtain ⟨tovar, hTovar, rfl⟩ := List.mem_map.mp hY
  obtain ⟨row, hRow, rfl⟩ := List.mem_map.mp hTovar
  exact ⟨row, List.mem_mergeSort.mp hRow, hShown.id.2.trans (numberIn_of_int rfl)⟩

/-- A body that is answered with "success" has been stored. -/
theorem setForm_of_success {req : Request} {done : World}
    (hParse : pl.parse req.body = some json)
    (hDone : Admin.apiSettingsSet pl req w = .ok ⟨⟩ done)
    (hSuccess : done.response.body = statusText "success") : ∃ form, setForm json = some form := by
  cases hForm : setForm json with
  | some form => exact ⟨form, rfl⟩
  | none =>
      obtain ⟨next, hEnds, -⟩ := (apiSettingsSet_of_form_none hParse hForm).ends
      rcases hEnds with hError | ⟨hOk, hAnswer⟩
      · rw [hError] at hDone
        cases hDone
      · rw [hOk] at hDone
        cases hDone
        rw [hSuccess] at hAnswer
        exact absurd hAnswer (by decide)

end Exchange

/-- After a body has been answered with "success", the next `api_settings_get` returns what
was posted exactly if the tables keep it.  That the columns hold values of their type is what
MySQL takes care of. -/
theorem settings_set_then_get (pl : Platform) (con : Connection) (w done : World) (req : Request)
    (json : Json) (env : Env) (hServes : Serves con w) (hIds : DistinctIds (w.tables con))
    (hStation : ∀ com ∈ (w.tables con).comTrk, com.idAzs = w.station pl)
    (hParse : pl.parse req.body = some json) (hPostable : Postable json)
    (hDone : Admin.apiSettingsSet pl req w = .ok ⟨⟩ done)
    (hSuccess : done.response.body = statusText "success")
    (hColumns : Int32Columns (done.tables con)) (hSql : ∀ executed ∈ env.sql, executed = true)
    (hDump : ∀ value, pl.dump value ≠ none ↔ value.Dumpable) :
    ReturnsPosted pl (w.tables con) json (done.received env) ↔
      SettingsKept (w.tables con) json := by
  obtain ⟨form, hForm⟩ := setForm_of_success hParse hDone hSuccess
  obtain ⟨⟨hTovars, hTanks, hTrks⟩, hReadTovar, hReadTank, hReadTrk⟩ := read_of_setForm hForm
  have hPlain : ∀ tovar ∈ form.tovars, tovar.plain = true := by
    rw [hTovars]
    exact List.forall_mem_map.mpr hPostable.plain
  obtain ⟨next, hRun, -, hTables, hDb⟩ :=
    apiSettingsSet_serves req hServes hParse hForm (stored_of_plain hPlain)
  obtain rfl : done = next := by
    rw [hDone] at hRun
    cases hRun
    rfl
  -- the tables that the next request reads
  have hRows : (done.received env).tables con = form.rows (w.tables con) := hTables
  have hNext : Serves con (done.received env) := by
    refine ⟨?_, hServes.schema, hSql⟩
    show done.azsDb.con = some con
    rw [hDb]
    exact hServes.con_eq
  have hSame : (done.received env).station pl = w.station pl := by
    show pl.mysql.number done.azsDb.azsId = pl.mysql.number w.azsDb.azsId
    rw [hDb]
  rw [hTables] at hColumns
  obtain ⟨trks, hLoad⟩ : ∃ trks, loadedTrks (w.station pl) (form.rows (w.tables con)) = some trks := by
    refine Option.ne_none_iff_exists'.mp (loadTrks_pistRows_ne_none _ _ fun com hCom hMinus => ?_)
    obtain ⟨old, hOld, rfl⟩ := List.mem_map.mp hCom
    have hPositive := hIds.pumpIds old hOld
    rw [keyed_storeComTrkRow.rowKey_updated form.trks old] at hMinus
    omega
  have hNextLoad : loadedTrks ((done.received env).station pl) ((done.received env).tables con) =
      some trks := by
    rw [hSame, hRows]
    exact hLoad
  have hSizes : loadedSizes (form.rows (w.tables con)) = loadedSizes (w.tables con) := rfl
  rw [returnsPosted_iff hNext hNextLoad hDump, hRows, hSizes, showsPosted_iff,
    showsTovars_iff hTovars hReadTovar hPostable.tovars hPostable.prices hPostable.colors hColumns,
    showsTanks_iff hTanks hReadTank hPostable.tanks hColumns,
    showsTrks_iff hIds hStation hTrks hReadTrk hPostable.trks hPostable.pists hColumns hLoad]
  -- the names are those of the posted products and of the other rows
  have hNames : (∀ x ∈ elementsIn json "tovars",
      WholeTovar x ∧ HasTovar (w.tables con) (jsonToTovar x).idTovar) →
        (NamesWritten (form.rows (w.tables con)) ↔
          (∀ x ∈ elementsIn json "tovars", (jsonToTovar x).NamesUtf8) ∧
          ∀ row ∈ (w.tables con).tovar,
            (∀ x ∈ elementsIn json "tovars", row.idTovar ≠ (jsonToTovar x).idTovar) →
              (loadTovar row).NamesUtf8) := by
    intro hKept
    have hNodup : (form.tovars.map Tovar.idTovar).Nodup := by
      rw [hTovars, List.map_map]
      exact nodup_map_of_numbers
        (fun x hIn => idTovar_of_whole (hReadTovar x hIn) (hKept x hIn).1.id) hPostable.tovars
    have hHas : ∀ tovar ∈ form.tovars, HasTovar (w.tables con) tovar.idTovar := by
      rw [hTovars]
      exact List.forall_mem_map.mpr fun x hIn => (hKept x hIn).2
    rw [namesWritten_rows_iff hNodup hHas, hTovars]
    simp only [List.forall_mem_map]
  constructor
  · rintro ⟨hSome, hWritten, hTovarsKept, hTanksKept, hTrksKept⟩
    obtain ⟨hPosted, hOthers⟩ := (hNames hTovarsKept).mp hWritten
    exact ⟨hSome, hTovarsKept, hTanksKept, hTrksKept, hPosted, hOthers⟩
  · rintro ⟨hSome, hTovarsKept, hTanksKept, hTrksKept, hPosted, hOthers⟩
    exact ⟨hSome, (hNames hTovarsKept).mpr ⟨hPosted, hOthers⟩, hTovarsKept, hTanksKept, hTrksKept⟩

/-! ## Two bodies -/

/-- A product without a row, as the page posts it for a new one. -/
def newProduct : Json :=
  .object [jsonKey "tovars" (.array [tovarJson { idTovar := 2, price := 60, name := ascii "A98" }])]

/-- Values for all rows of `onePump`, and a new nozzle. -/
def wholePost : Json :=
  .object [jsonKey "tovars" (.array [tovarJson ⟨1, 53, ascii "A95", [], [], [], ⟨1, 2, 3⟩⟩]),
    jsonKey "tanks" (.array [tankJson { idTank := 1, idTovar := 1, volume := 1000, remain := 400 }]),
    jsonKey "trks" (.array [trkJson ⟨1, 5, 6, 2, [⟨1, 1, none⟩, ⟨0, 1, none⟩]⟩])]

/-- The request with a body. -/
def setRequest (json : Json) : Request := { url := ascii "/api/settings/set", body := json.plainText }

/-- A platform that reads it and writes JSON values. -/
def settingsPlatform (json : Json) : Platform := writingPlatform.reading json.plainText json

theorem parse_setRequest (json : Json) :
    (settingsPlatform json).parse (setRequest json).body = some json := if_pos rfl

/-- A body with at most one product. -/
theorem postable_of_one {json : Json} {tovar : Tovar}
    (hTovars : elementsIn json "tovars" = [tovarJson tovar])
    (hRead : jsonToTovar (tovarJson tovar) = tovar)
    (hTanks : ((elementsIn json "tanks").filterMap (numberIn · "id_tank")).Nodup)
    (hTrks : ((elementsIn json "trks").filterMap (numberIn · "id_trk")).Nodup)
    (hPists : ∀ trk ∈ elementsIn json "trks",
      (((elementsIn trk "pists").filterMap (numberIn · "id_pist")).filter (· ≠ 0)).Nodup)
    (hPlain : tovar.plain = true) (hPrice : HasDecimals 2 tovar.price)
    (hColor : tovar.color.bytes) : Postable json := by
  have hOne : ∀ {good : Json → Prop}, good (tovarJson tovar) →
      ∀ x ∈ elementsIn json "tovars", good x := by
    intro good hGood x hMem
    rw [hTovars] at hMem
    rwa [List.mem_singleton.mp hMem]
  refine ⟨?_, hTanks, hTrks, hPists, hOne ?_, hOne ?_, hOne ?_⟩
  · rw [hTovars]
    exact List.nodup_singleton _
  · rw [hRead]
    exact hPlain
  · rw [hRead]
    exact hPrice
  · rw [hRead]
    exact hColor

theorem setForm_newProduct :
    setForm newProduct = some ⟨[{ idTovar := 2, price := 60, name := ascii "A98" }], [], []⟩ := by
  decide +kernel

/-- Its answer is "success", but it is not returned. -/
theorem new_product_lost :
    Serves ⟨{}, true⟩ (stationWorld onePump) ∧ DistinctIds onePump ∧
      (∀ com ∈ onePump.comTrk, com.idAzs = (stationWorld onePump).station (settingsPlatform newProduct)) ∧
      Postable newProduct ∧ ∃ done,
        Admin.apiSettingsSet (settingsPlatform newProduct) (setRequest newProduct)
          (stationWorld onePump) = .ok ⟨⟩ done ∧
        done.response.body = statusText "success" ∧
        ¬ ReturnsPosted (settingsPlatform newProduct) onePump newProduct
          (done.received { now := .epoch }) := by
  have hServes := serves_stationWorld onePump
  have hPostable : Postable newProduct := by
    have hRead : jsonToTovar (tovarJson { idTovar := 2, price := 60, name := ascii "A98" }) =
        { idTovar := 2, price := 60, name := ascii "A98" } := by
      decide +kernel
    refine postable_of_one rfl hRead (by decide) (by decide) (fun _ hMem => by cases hMem)
      (by decide) ⟨6000, by norm_num⟩ ?_
    unfold Color.bytes
    decide
  -- the `UPDATE` changes no row
  have hStored : SettingsForm.stored (settingsPlatform newProduct).mysql
      ⟨[{ idTovar := 2, price := 60, name := ascii "A98" }], [], []⟩
      ((stationWorld onePump).tables ⟨{}, true⟩) = some onePump := by
    decide +kernel
  obtain ⟨done, hDone, hSuccess, hTables, hDb⟩ := apiSettingsSet_serves (setRequest newProduct)
    hServes (parse_setRequest newProduct) setForm_newProduct hStored
  have hStation : ∀ com ∈ onePump.comTrk,
      com.idAzs = (stationWorld onePump).station (settingsPlatform newProduct) := by
    decide
  refine ⟨hServes, exchangeable_onePump.ids, hStation, hPostable, done, hDone, hSuccess, fun hReturns => ?_⟩
  have hNext : Serves ⟨{}, true⟩ (done.received { now := .epoch }) := by
    refine ⟨?_, rfl, fun _ hMem => by cases hMem⟩
    show done.azsDb.con = _
    rw [hDb]
    rfl
  obtain ⟨row, hRow, hNumber⟩ := hReturns.tovarRow hNext _ List.mem_cons_self
  have hRow : row ∈ (done.tables ⟨{}, true⟩).tovar := hRow
  rw [hTables] at hRow
  rw [List.mem_singleton.mp hRow] at hNumber
  exact absurd hNumber (by decide +kernel)

/-- What is stored of the other body. -/
def wholeForm : SettingsForm :=
  ⟨[⟨1, 53, ascii "A95", [], [], [], ⟨1, 2, 3⟩⟩],
    [{ idTank := 1, idTovar := 1, volume := 1000, remain := 400 }],
    [⟨1, 5, 6, 2, [⟨1, 1, none⟩, ⟨0, 1, none⟩]⟩]⟩

theorem setForm_wholePost : setForm wholePost = some wholeForm := by
  decide +kernel

theorem postable_wholePost : Postable wholePost := by
  have hRead : jsonToTovar (tovarJson ⟨1, 53, ascii "A95", [], [], [], ⟨1, 2, 3⟩⟩) =
      ⟨1, 53, ascii "A95", [], [], [], ⟨1, 2, 3⟩⟩ := by
    decide +kernel
  refine postable_of_one rfl hRead (by decide) (by decide) ?_ (by decide) ⟨5300, by norm_num⟩ ?_
  · decide +kernel
  · unfold Color.bytes
    decide

theorem wholeIn_of_int {x : Json} {key : String} {n : Int} (hField : x.field key = some (.int n))
    (hInt : -2 ^ 31 ≤ n ∧ n < 2 ^ 31) : WholeIn x key :=
  ⟨n, numberIn_of_int hField, hInt⟩

theorem wholePist_pistJson {pist : Pist} (hId : -2 ^ 31 ≤ pist.idPist ∧ pist.idPist < 2 ^ 31)
    (hTank : -2 ^ 31 ≤ pist.idTank ∧ pist.idTank < 2 ^ 31) : WholePist (pistJson pist) :=
  ⟨wholeIn_of_int rfl hId, wholeIn_of_int rfl hTank⟩

theorem settingsKept_wholePost : SettingsKept onePump wholePost where
  sizes := Option.some_ne_none []
  tovars x hMem := by
    obtain rfl := List.mem_singleton.mp hMem
    refine ⟨⟨wholeIn_of_int rfl (by decide), Option.some_ne_none _, _, rfl,
      wholeIn_of_int rfl (by decide), wholeIn_of_int rfl (by decide),
      wholeIn_of_int rfl (by decide)⟩, _, List.mem_cons_self, ?_⟩
    decide +kernel
  tanks x hMem := by
    obtain rfl := List.mem_singleton.mp hMem
    refine ⟨⟨wholeIn_of_int rfl (by decide), wholeIn_of_int rfl (by decide),
      wholeIn_of_int rfl (by decide), wholeIn_of_int rfl (by decide)⟩, _, List.mem_cons_self, ?_⟩
    decide +kernel
  trks x hMem := by
    obtain rfl := List.mem_singleton.mp hMem
    have hRead : jsonToTrk (trkJson ⟨1, 5, 6, 2, [⟨1, 1, none⟩, ⟨0, 1, none⟩]⟩) =
        ⟨1, 5, 6, 2, [⟨1, 1, none⟩, ⟨0, 1, none⟩]⟩ := by
      decide +kernel
    rw [hRead]
    have hPists : ∀ pist ∈ elementsIn
        (trkJson ⟨1, 5, 6, 2, [⟨1, 1, none⟩, ⟨0, 1, none⟩]⟩) "pists", WholePist pist := by
      intro pist hPist
      rcases List.mem_pair.mp hPist with rfl | rfl
      · exact wholePist_pistJson (by decide) (by decide)
      · exact wholePist_pistJson (by decide) (by decide)
    exact ⟨⟨wholeIn_of_int rfl (by decide), wholeIn_of_int rfl (by decide),
      wholeIn_of_int rfl (by decide), Option.some_ne_none _, hPists⟩,
      ⟨_, List.mem_cons_self, rfl⟩, by decide, ⟨2000000, by norm_num⟩, by decide⟩
  names x hMem := by
    obtain rfl := List.mem_singleton.mp hMem
    have hRead : jsonToTovar (tovarJson ⟨1, 53, ascii "A95", [], [], [], ⟨1, 2, 3⟩⟩) =
        ⟨1, 53, ascii "A95", [], [], [], ⟨1, 2, 3⟩⟩ := by
      decide +kernel
    rw [hRead]
    exact ⟨utf8_ascii (by decide), ⟨[], rfl⟩, ⟨[], rfl⟩, ⟨[], rfl⟩⟩
  otherNames row hRow _ := by
    obtain rfl := List.mem_singleton.mp hRow
    exact ⟨utf8_ascii (by decide), ⟨[], rfl⟩, ⟨[], rfl⟩, ⟨[], rfl⟩⟩

/-- All values are returned. -/
theorem whole_post_returned :
    ∃ done, Admin.apiSettingsSet (settingsPlatform wholePost) (setRequest wholePost)
        (stationWorld onePump) = .ok ⟨⟩ done ∧
      done.response.body = statusText "success" ∧
      ReturnsPosted (settingsPlatform wholePost) onePump wholePost
        (done.received { now := .epoch }) := by
  have hServes := serves_stationWorld onePump
  have hPlain : ∀ tovar ∈ wholeForm.tovars, tovar.plain = true := by decide
  obtain ⟨done, hDone, hSuccess, hTables, -⟩ := apiSettingsSet_serves (setRequest wholePost)
    hServes (parse_setRequest wholePost) setForm_wholePost (stored_of_plain hPlain)
  have hColumns : Int32Columns (done.tables ⟨{}, true⟩) := by
    rw [hTables]
    constructor <;> (unfold IsInt32; decide +kernel)
  refine ⟨done, hDone, hSuccess, ?_⟩
  exact (settings_set_then_get (settingsPlatform wholePost) ⟨{}, true⟩ (stationWorld onePump) done
    (setRequest wholePost) wholePost { now := .epoch } hServes exchangeable_onePump.ids (by decide)
    (parse_setRequest wholePost) postable_wholePost hDone hSuccess hColumns
    (fun _ hMem => by cases hMem) writesJson_writingPlatform.dumps).mpr settingsKept_wholePost

end Server
end AzsServer
