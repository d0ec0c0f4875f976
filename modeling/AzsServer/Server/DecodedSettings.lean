import AzsServer.Library.Runs
import AzsServer.Server.SettingsAnswers

/-!
# Settings are stored only if all of them decode

`api_settings_set` reads every element of its three arrays before its first statement; the
functions `json_to_tovar`, `json_to_tank` and `json_to_trk` report a failure by the id -1 of
a default value.  `api_settings_delete` reads its elements in one `try` block and has no such
mark.
-/

namespace AzsServer
namespace Server

open Core Library Nlohmann

/-! ## What an element has to be -/

/-- The value is an object with such a member. -/
def HasMember (json : Json) (key : String) (value : Json) : Prop :=
  ∃ members, json = .object members ∧
    (members.find? fun m => m.1 = ascii key).map (·.2) = some value

/-- The value has a member that converts to an integer, a number or a string. -/
def HasInt (json : Json) (key : String) (n : Int) : Prop :=
  ∃ value, HasMember json key value ∧ value.toInt? = some n

def HasFloat (json : Json) (key : String) (q : Rat) : Prop :=
  ∃ value, HasMember json key value ∧ value.toFloat? = some q

def HasString (json : Json) (key : String) (text : Bytes) : Prop :=
  ∃ value, HasMember json key value ∧ value.toString? = some text

/-- A product. -/
structure TovarIn (json : Json) (tovar : Tovar) : Prop where
  idTovar : HasInt json "id_tovar" tovar.idTovar
  name : HasString json "name" tovar.name
  nameP : HasString json "name_p" tovar.nameP
  namePF : HasString json "name_p_f" tovar.namePF
  namePV : HasString json "name_p_v" tovar.namePV
  price : HasFloat json "price" tovar.price
  color : ∃ color, HasMember json "color" color ∧ HasInt color "r" tovar.color.r ∧
    HasInt color "g" tovar.color.g ∧ HasInt color "b" tovar.color.b

/-- A tank. -/
structure TankIn (json : Json) (tank : Tank) : Prop where
  idTank : HasInt json "id_tank" tank.idTank
  idTovar : HasInt json "id_tovar" tank.idTovar
  remain : HasInt json "remain" tank.remain
  volume : HasInt json "volume" tank.volume
  tovar : tank.tovar = none

/-- A nozzle. -/
structure PistIn (json : Json) (pist : Pist) : Prop where
  idPist : HasInt json "id_pist" pist.idPist
  idTank : HasInt json "id_tank" pist.idTank
  tank : pist.tank = none

/-- The nozzles of a pump; without the member, with a null or with an empty object there are
none. -/
def PistsIn (json : Json) (pists : List Pist) : Prop :=
  (∃ values, HasMember json "pists" (.array values) ∧ List.Forall₂ PistIn values pists) ∨
    ((∀ value, HasMember json "pists" value → value = .null ∨ value = .object []) ∧ pists = [])

/-- A pump. -/
structure TrkIn (json : Json) (trk : Trk) : Prop where
  idTrk : HasInt json "id_trk" trk.idTrk
  xPos : HasInt json "x_pos" trk.xPos
  yPos : HasInt json "y_pos" trk.yPos
  scale : HasFloat json "scale" trk.scale
  pists : PistsIn json trk.pists

/-- The arrays of the value decode completely, with ids other than -1. -/
structure Posted (json : Json) (form : SettingsForm) : Prop where
  tovars : ∃ elements, arrayElements json "tovars" = some elements ∧
    List.Forall₂ (fun e tovar => TovarIn e tovar ∧ tovar.idTovar ≠ -1) elements form.tovars
  tanks : ∃ elements, arrayElements json "tanks" = some elements ∧
    List.Forall₂ (fun e tank => TankIn e tank ∧ tank.idTank ≠ -1) elements form.tanks
  trks : ∃ elements, arrayElements json "trks" = some elements ∧
    List.Forall₂ (fun e trk => TrkIn e trk ∧ trk.idTrk ≠ -1) elements form.trks

/-- What `api_settings_delete` needs of a product, a tank, a nozzle and a pump. -/
def NamesTovar (json : Json) (tovar : Tovar) : Prop :=
  HasInt json "id_tovar" tovar.idTovar ∧ tovar = { idTovar := tovar.idTovar }

def NamesTank (json : Json) (tank : Tank) : Prop :=
  HasInt json "id_tank" tank.idTank ∧ tank = { idTank := tank.idTank }

def NamesPist (json : Json) (pist : Pist) : Prop :=
  HasInt json "id_pist" pist.idPist ∧ pist = { idPist := pist.idPist }

structure NamesTrk (json : Json) (trk : Trk) : Prop where
  idTrk : HasInt json "id_trk" trk.idTrk
  pists : ∃ elements, arrayElements json "pists" = some elements ∧
    List.Forall₂ NamesPist elements trk.pists
  rest : trk = { idTrk := trk.idTrk, pists := trk.pists }

/-- The arrays of the value name what is to be deleted. -/
structure Named (json : Json) (form : SettingsForm) : Prop where
  tovars : ∃ elements, arrayElements json "tovars" = some elements ∧
    List.Forall₂ NamesTovar elements form.tovars
  tanks : ∃ elements, arrayElements json "tanks" = some elements ∧
    List.Forall₂ NamesTank elements form.tanks
  trks : ∃ elements, arrayElements json "trks" = some elements ∧
    List.Forall₂ NamesTrk elements form.trks

/-! ## The decoders -/

section Decoders

variable {json : Json} {key : String} {n : Int} {q : Rat} {text : Bytes} {tovar : Tovar} {tank : Tank}
  {pist : Pist} {trk : Trk} {pists : List Pist} {α : Type}

/-- A member that is no null is there. -/
theorem hasMember_of_field {value : Json} (hField : json.field key = some value)
    (hNe : value ≠ .null) : HasMember json key value := by
  cases json with
  | object members =>
      cases hFind : (members.find? fun m => m.1 = ascii key).map (·.2) with
      | none =>
          -- `operator[]` puts a null in for a missing key
          have hField : (none : Option Json).getD .null = value := by
            rw [← hFind]
            exact Option.some.inj hField
          exact absurd hField.symm hNe
      | some found =>
          have hField : (some found).getD .null = value := by
            rw [← hFind]
            exact Option.some.inj hField
          exact ⟨members, rfl, hFind.trans (congrArg some hField)⟩
  | null => exact absurd (Option.some.inj hField).symm hNe
  | _ => cases hField

theorem field_of_hasMember {value : Json} (hMember : HasMember json key value) :
    json.field key = some value := by
  obtain ⟨members, rfl, hFind⟩ := hMember
  show some (Option.getD _ _) = _
  rw [hFind]
  rfl

/-- A member that converts is there, as a null does not convert. -/
theorem field_convert_iff {convert : Json → Option α} {a : α} (hNull : convert .null = none) :
    json.field key >>= convert = some a ↔ ∃ value, HasMember json key value ∧ convert value = some a := by
  constructor
  · intro hSome
    obtain ⟨value, hField, hConvert⟩ := Option.bind_eq_some_iff.mp hSome
    refine ⟨value, hasMember_of_field hField ?_, hConvert⟩
    rintro rfl
    rw [hNull] at hConvert
    cases hConvert
  · rintro ⟨value, hMember, hConvert⟩
    rw [field_of_hasMember hMember]
    exact hConvert

theorem fieldInt_iff : fieldInt json key = some n ↔ HasInt json key n := field_convert_iff rfl

theorem fieldFloat_iff : fieldFloat json key = some q ↔ HasFloat json key q := field_convert_iff rfl

theorem fieldString_iff : fieldString json key = some text ↔ HasString json key text :=
  field_convert_iff rfl

/-- Only an object has members. -/
theorem HasInt.ne_null (hInt : HasInt json key n) : json ≠ .null := by
  obtain ⟨value, ⟨members, rfl, -⟩, -⟩ := hInt
  exact nofun

theorem readTovar_iff : readTovar json = some tovar ↔ TovarIn json tovar := by
  constructor
  · intro hRead
    obtain ⟨idTovar, hId, hRead⟩ := Option.bind_eq_some_iff.mp hRead
    obtain ⟨name, hName, hRead⟩ := Option.bind_eq_some_iff.mp hRead
    obtain ⟨nameP, hNameP, hRead⟩ := Option.bind_eq_some_iff.mp hRead
    obtain ⟨namePF, hNamePF, hRead⟩ := Option.bind_eq_some_iff.mp hRead
    obtain ⟨namePV, hNamePV, hRead⟩ := Option.bind_eq_some_iff.mp hRead
    obtain ⟨price, hPrice, hRead⟩ := Option.bind_eq_some_iff.mp hRead
    obtain ⟨color, hColor, hRead⟩ := Option.bind_eq_some_iff.mp hRead
    obtain ⟨r, hR, hRead⟩ := Option.bind_eq_some_iff.mp hRead
    obtain ⟨g, hG, hRead⟩ := Option.bind_eq_some_iff.mp hRead
    obtain ⟨b, hB, hRead⟩ := Option.bind_eq_some_iff.mp hRead
    obtain rfl := Option.some.inj hRead
    have hR := fieldInt_iff.mp hR
    exact ⟨fieldInt_iff.mp hId, fieldString_iff.mp hName, fieldString_iff.mp hNameP,
      fieldString_iff.mp hNamePF, fieldString_iff.mp hNamePV, fieldFloat_iff.mp hPrice,
      color, hasMember_of_field hColor hR.ne_null, hR, fieldInt_iff.mp hG, fieldInt_iff.mp hB⟩
  · rintro ⟨hId, hName, hNameP, hNamePF, hNamePV, hPrice, color, hColor, hR, hG, hB⟩
    simp [readTovar, fieldInt_iff.mpr hId, fieldString_iff.mpr hName, fieldString_iff.mpr hNameP,
      fieldString_iff.mpr hNamePF, fieldString_iff.mpr hNamePV, fieldFloat_iff.mpr hPrice,
      field_of_hasMember hColor, fieldInt_iff.mpr hR, fieldInt_iff.mpr hG, fieldInt_iff.mpr hB]

theorem readTank_iff : readTank json = some tank ↔ TankIn json tank := by
  constructor
  · intro hRead
    obtain ⟨idTank, hId, hRead⟩ := Option.bind_eq_some_iff.mp hRead
    obtain ⟨idTovar, hTovar, hRead⟩ := Option.bind_eq_some_iff.mp hRead
    obtain ⟨remain, hRemain, hRead⟩ := Option.bind_eq_some_iff.mp hRead
    obtain ⟨volume, hVolume, hRead⟩ := Option.bind_eq_some_iff.mp hRead
    obtain rfl := Option.some.inj hRead
    exact ⟨fieldInt_iff.mp hId, fieldInt_iff.mp hTovar, fieldInt_iff.mp hRemain,
      fieldInt_iff.mp hVolume, rfl⟩
  · rintro ⟨hId, hTovar, hRemain, hVolume, hNone⟩
    obtain ⟨idTank, idTovar, volume, remain, link⟩ := tank
    obtain rfl : link = none := hNone
    simp [readTank, fieldInt_iff.mpr hId, fieldInt_iff.mpr hTovar, fieldInt_iff.mpr hRemain,
      fieldInt_iff.mpr hVolume]

/-- An element of the nozzles. -/
theorem readPist_item_iff :
    (do
      let idPist ← fieldInt json "id_pist"
      let idTank ← fieldInt json "id_tank"
      return (⟨idPist, idTank, none⟩ : Pist)) = some pist ↔ PistIn json pist := by
  constructor
  · intro hRead
    obtain ⟨idPist, hId, hRead⟩ := Option.bind_eq_some_iff.mp hRead
    obtain ⟨idTank, hTank, hRead⟩ := Option.bind_eq_some_iff.mp hRead
    obtain rfl := Option.some.inj hRead
    exact ⟨fieldInt_iff.mp hId, fieldInt_iff.mp hTank, rfl⟩
  · rintro ⟨hId, hTank, hNone⟩
    obtain ⟨idPist, idTank, link⟩ := pist
    obtain rfl : link = none := hNone
    simp [fieldInt_iff.mpr hId, fieldInt_iff.mpr hTank]

/-- The loop over `pists` runs over its size, which is 0 for a null and for an empty object and 1
for a value that has no elements; the access to one of these throws. -/
theorem readPists_iff (value : Json) :
    (List.range value.size).mapM (readPist value) = some pists ↔
      (∃ values, value = .array values ∧ List.Forall₂ PistIn values pists) ∨
        (value = .null ∨ value = .object []) ∧ pists = [] := by
  have hNone : value.size = 0 → (List.range value.size).mapM (readPist value) = some [] := by
    intro hSize
    rw [hSize]
    rfl
  have hThrows : 0 < value.size → value.item 0 = none →
      (List.range value.size).mapM (readPist value) = none := by
    intro hSize hItem
    have hFirst : readPist value 0 = none := by
      rw [readPist, hItem]
      rfl
    obtain ⟨size, hSucc⟩ := Nat.exists_eq_succ_of_ne_zero hSize.ne'
    rw [hSucc, List.range_succ_eq_map, List.mapM_cons, hFirst]
    rfl
  cases value with
  | null =>
      rw [hNone rfl]
      simp [eq_comm]
  | array values =>
      have hLoop : (List.range (Json.array values).size).mapM (readPist (.array values)) =
          values.mapM fun value => do
            let idPist ← fieldInt value "id_pist"
            let idTank ← fieldInt value "id_tank"
            return (⟨idPist, idTank, none⟩ : Pist) := Json.mapM_range_item values _
      rw [hLoop, mapM_eq_some_iff]
      simp only [readPist_item_iff]
      simp
  | object members =>
      cases members with
      | nil =>
          rw [hNone rfl]
          simp [eq_comm]
      | cons member members =>
          -- `operator[]` with an index throws on everything but an array and a null
          rw [hThrows (Nat.succ_pos _) rfl]
          simp
  | bool _ =>
      rw [hThrows Nat.one_pos rfl]
      simp
  | int _ =>
      rw [hThrows Nat.one_pos rfl]
      simp
  | float _ =>
      rw [hThrows Nat.one_pos rfl]
      simp
  | string _ =>
      rw [hThrows Nat.one_pos rfl]
      simp

theorem readTrk_iff : readTrk json = some trk ↔ TrkIn json trk := by
  constructor
  · intro hRead
    obtain ⟨value, hField, hRead⟩ := Option.bind_eq_some_iff.mp hRead
    obtain ⟨pists, hPists, hRead⟩ := Option.bind_eq_some_iff.mp hRead
    obtain ⟨idTrk, hId, hRead⟩ := Option.bind_eq_some_iff.mp hRead
    obtain ⟨xPos, hX, hRead⟩ := Option.bind_eq_some_iff.mp hRead
    obtain ⟨yPos, hY, hRead⟩ := Option.bind_eq_some_iff.mp hRead
    obtain ⟨scale, hScale, hRead⟩ := Option.bind_eq_some_iff.mp hRead
    obtain rfl := Option.some.inj hRead
    refine ⟨fieldInt_iff.mp hId, fieldInt_iff.mp hX, fieldInt_iff.mp hY, fieldFloat_iff.mp hScale, ?_⟩
    rcases (readPists_iff value).mp hPists with ⟨values, rfl, hAll⟩ | ⟨hNone, hNil⟩
    · exact Or.inl ⟨values, hasMember_of_field hField nofun, hAll⟩
    · refine Or.inr ⟨fun other hMember => ?_, hNil⟩
      obtain rfl := Option.some.inj (hField.symm.trans (field_of_hasMember hMember))
      exact hNone
  · rintro ⟨hId, hX, hY, hScale, hPists⟩
    -- a missing member is read as a null
    obtain ⟨value, hField, hRead⟩ : ∃ value, json.field "pists" = some value ∧
        (List.range value.size).mapM (readPist value) = some trk.pists := by
      rcases hPists with ⟨values, hMember, hAll⟩ | ⟨hNone, hNil⟩
      · exact ⟨_, field_of_hasMember hMember, (readPists_iff _).mpr (Or.inl ⟨values, rfl, hAll⟩)⟩
      · -- the id shows that the value is an object
        obtain ⟨_, ⟨members, rfl, -⟩, -⟩ := hId
        refine ⟨_, rfl, (readPists_iff _).mpr (Or.inr ⟨?_, hNil⟩)⟩
        cases hFind : (members.find? fun m => m.1 = ascii "pists").map (·.2) with
        | none => exact Or.inl rfl
        | some value => exact hNone value ⟨members, rfl, hFind⟩
    simp [readTrk, hField, hRead, fieldInt_iff.mpr hId, fieldInt_iff.mpr hX, fieldInt_iff.mpr hY,
      fieldFloat_iff.mpr hScale]

/-- The mark of a failure is the id of a default value, which no decoded element with another id
has. -/
theorem getD_eq_iff {read : Option α} {default a : α} {id : α → Int} (hMark : id default = -1)
    (hId : id a ≠ -1) : read.getD default = a ↔ read = some a := by
  cases read with
  | none =>
      refine iff_of_false (fun hSame => hId ?_) nofun
      rw [← hMark]
      exact congrArg id hSame.symm
  | some b => simp

end Decoders

/-! ## The forms -/

section Forms

variable {json : Json} {form : SettingsForm} {elements : List Json} {α : Type}

/-- The elements of an array are decoded, and none of them has the mark of a failure. -/
theorem decoded_iff {read : Json → Option α} {default : α} {id : α → Int} {as : List α}
    {In : Json → α → Prop} (hMark : id default = -1) (hRead : ∀ e a, read e = some a ↔ In e a) :
    as = elements.map (fun e => (read e).getD default) ∧ ¬ as.any (id · = -1) = true ↔
      List.Forall₂ (fun e a => In e a ∧ id a ≠ -1) elements as := by
  induction elements generalizing as with
  | nil =>
      constructor
      · rintro ⟨rfl, -⟩
        exact .nil
      · rintro ⟨⟩
        simp
  | cons e elements ih =>
      constructor
      · rintro ⟨rfl, hNone⟩
        simp only [List.map_cons, List.any_cons, Bool.or_eq_true, decide_eq_true_eq, not_or] at hNone
        obtain ⟨hHead, hRest⟩ := hNone
        -- an id other than the mark comes from an element that was read
        refine .cons ⟨(hRead _ _).mp ?_, hHead⟩ (ih.mp ⟨rfl, hRest⟩)
        exact (getD_eq_iff hMark hHead).mp rfl
      · rintro (_ | ⟨⟨hIn, hId⟩, hRest⟩)
        obtain ⟨rfl, hNone⟩ := ih.mpr hRest
        refine ⟨?_, ?_⟩
        · rw [List.map_cons, (getD_eq_iff hMark hId).mpr ((hRead _ _).mpr hIn)]
        · simp only [List.any_cons, Bool.or_eq_true, decide_eq_true_eq, not_or]
          exact ⟨hId, hNone⟩

/-- `api_settings_set` comes to its statements exactly with arrays that decode completely. -/
theorem setForm_iff : setForm json = some form ↔ Posted json form := by
  have hTovars := fun elements => @decoded_iff elements Tovar readTovar {} (·.idTovar) form.tovars
    TovarIn rfl fun _ _ => readTovar_iff
  have hTanks := fun elements => @decoded_iff elements Tank readTank {} (·.idTank) form.tanks
    TankIn rfl fun _ _ => readTank_iff
  have hTrks := fun elements => @decoded_iff elements Trk readTrk {} (·.idTrk) form.trks
    TrkIn rfl fun _ _ => readTrk_iff
  rw [setForm_eq_some_iff]
  constructor
  · rintro ⟨hPosted, hRead⟩
    obtain ⟨tovars, hTovar, hPosted⟩ := Option.bind_eq_some_iff.mp hPosted
    obtain ⟨tanks, hTank, hPosted⟩ := Option.bind_eq_some_iff.mp hPosted
    obtain ⟨trks, hTrk, hPosted⟩ := Option.bind_eq_some_iff.mp hPosted
    obtain rfl := Option.some.inj hPosted
    unfold SettingsForm.unread at hRead
    simp only [not_or] at hRead
    exact ⟨⟨tovars, hTovar, (hTovars tovars).mp ⟨rfl, hRead.1⟩⟩,
      ⟨tanks, hTank, (hTanks tanks).mp ⟨rfl, hRead.2.1⟩⟩,
      ⟨trks, hTrk, (hTrks trks).mp ⟨rfl, hRead.2.2⟩⟩⟩
  · rintro ⟨⟨tovars, hTovar, hTovarsIn⟩, ⟨tanks, hTank, hTanksIn⟩, ⟨trks, hTrk, hTrksIn⟩⟩
    obtain ⟨hTovarsEq, hNoTovar⟩ := (hTovars tovars).mpr hTovarsIn
    obtain ⟨hTanksEq, hNoTank⟩ := (hTanks tanks).mpr hTanksIn
    obtain ⟨hTrksEq, hNoTrk⟩ := (hTrks trks).mpr hTrksIn
    constructor
    · obtain ⟨first, second, third⟩ := form
      obtain rfl := hTovarsEq
      obtain rfl := hTanksEq
      obtain rfl := hTrksEq
      rw [postedForm, hTovar, hTank, hTrk]
      rfl
    · unfold SettingsForm.unread
      simp only [not_or]
      exact ⟨hNoTovar, hNoTank, hNoTrk⟩

/-- An element whose id alone is read. -/
theorem named_iff {build : Int → α} {id : α → Int} {key : String} {a : α} {e : Json}
    (hId : ∀ n, id (build n) = n) :
    (do
      let n ← fieldInt e key
      return build n) = some a ↔ HasInt e key (id a) ∧ a = build (id a) := by
  constructor
  · intro hRead
    obtain ⟨n, hInt, hSome⟩ := Option.bind_eq_some_iff.mp hRead
    obtain rfl := Option.some.inj hSome
    rw [hId]
    exact ⟨fieldInt_iff.mp hInt, rfl⟩
  · rintro ⟨hInt, hSame⟩
    rw [fieldInt_iff.mpr hInt]
    show some (build (id a)) = some a
    rw [← hSame]

theorem deletedTrk_iff {e : Json} {trk : Trk} : deletedTrk e = some trk ↔ NamesTrk e trk := by
  have hPist : ∀ (e : Json) (pist : Pist), _ ↔ NamesPist e pist := fun e pist =>
    @named_iff Pist (fun n => { idPist := n }) (·.idPist) "id_pist" pist e fun _ => rfl
  constructor
  · intro hRead
    obtain ⟨idTrk, hId, hRead⟩ := Option.bind_eq_some_iff.mp hRead
    obtain ⟨elements, hElements, hRead⟩ := Option.bind_eq_some_iff.mp hRead
    obtain ⟨pists, hPists, hRead⟩ := Option.bind_eq_some_iff.mp hRead
    obtain rfl := Option.some.inj hRead
    refine ⟨fieldInt_iff.mp hId, ⟨elements, hElements, ?_⟩, rfl⟩
    exact (mapM_eq_some_iff.mp hPists).imp fun e pist hSome => (hPist e pist).mp hSome
  · rintro ⟨hId, ⟨elements, hElements, hPists⟩, hRest⟩
    have hRun := mapM_eq_some_iff.mpr (hPists.imp fun e pist hNames => (hPist e pist).mpr hNames)
    rw [deletedTrk, fieldInt_iff.mpr hId]
    show (arrayElements e "pists" >>= _) = _
    rw [hElements]
    show ((elements.mapM _ : Option (List Pist)) >>= _) = _
    rw [hRun]
    exact congrArg some hRest.symm

/-- `api_settings_delete` comes to its statements exactly with arrays that name their rows. -/
theorem eraseForm_iff : eraseForm json = some form ↔ Named json form := by
  have hTovar : ∀ (e : Json) (tovar : Tovar), _ ↔ NamesTovar e tovar := fun e tovar =>
    @named_iff Tovar (fun n => { idTovar := n }) (·.idTovar) "id_tovar" tovar e fun _ => rfl
  have hTank : ∀ (e : Json) (tank : Tank), _ ↔ NamesTank e tank := fun e tank =>
    @named_iff Tank (fun n => { idTank := n }) (·.idTank) "id_tank" tank e fun _ => rfl
  constructor
  · intro hForm
    obtain ⟨lists, hLists, rfl⟩ := Option.map_eq_some_iff.mp hForm
    obtain ⟨tovarElements, hTovarElements, hLists⟩ := Option.bind_eq_some_iff.mp hLists
    obtain ⟨tovars, hTovars, hLists⟩ := Option.bind_eq_some_iff.mp hLists
    obtain ⟨tankElements, hTankElements, hLists⟩ := Option.bind_eq_some_iff.mp hLists
    obtain ⟨tanks, hTanks, hLists⟩ := Option.bind_eq_some_iff.mp hLists
    obtain ⟨trkElements, hTrkElements, hLists⟩ := Option.bind_eq_some_iff.mp hLists
    obtain ⟨trks, hTrks, hLists⟩ := Option.bind_eq_some_iff.mp hLists
    obtain rfl := Option.some.inj hLists
    exact ⟨⟨tovarElements, hTovarElements,
        (mapM_eq_some_iff.mp hTovars).imp fun e tovar hSome => (hTovar e tovar).mp hSome⟩,
      ⟨tankElements, hTankElements,
        (mapM_eq_some_iff.mp hTanks).imp fun e tank hSome => (hTank e tank).mp hSome⟩,
      ⟨trkElements, hTrkElements,
        (mapM_eq_some_iff.mp hTrks).imp fun e trk hSome => deletedTrk_iff.mp hSome⟩⟩
  · rintro ⟨⟨tovarElements, hTovarElements, hTovars⟩, ⟨tankElements, hTankElements, hTanks⟩,
      trkElements, hTrkElements, hTrks⟩
    have hTovarRun := mapM_eq_some_iff.mpr
      (hTovars.imp fun e tovar hNames => (hTovar e tovar).mpr hNames)
    have hTankRun := mapM_eq_some_iff.mpr
      (hTanks.imp fun e tank hNames => (hTank e tank).mpr hNames)
    have hTrkRun := mapM_eq_some_iff.mpr
      (hTrks.imp fun e trk hNames => deletedTrk_iff.mpr hNames)
    have hLists : deleteForm json = some (form.tovars, form.tanks, form.trks) := by
      rw [deleteForm, hTovarElements]
      show ((tovarElements.mapM _ : Option (List Tovar)) >>= _) = _
      rw [hTovarRun]
      show (arrayElements json "tanks" >>= _) = _
      rw [hTankElements]
      show ((tankElements.mapM _ : Option (List Tank)) >>= _) = _
      rw [hTankRun]
      show (arrayElements json "trks" >>= _) = _
      rw [hTrkElements]
      show (trkElements.mapM deletedTrk >>= _) = _
      rw [hTrkRun]
      rfl
    rw [eraseForm, hLists]
    rfl

end Forms

/-! ## The handlers -/

/-- The handler answers "error" and has sent no statement. -/
def AnswersError (w : World) (result : EStateM.Result Throw World Unit) : Prop :=
  ∃ next, result = .ok ⟨⟩ next ∧ next.response.body = statusText "error" ∧
    next.mysql = w.mysql ∧ next.log = w.log

/-- An object or a null, the values whose members can be accessed. -/
def HasMembers : Json → Prop
  | .null => True
  | .object _ => True
  | _ => False

theorem arrayElements_ne_none {json : Json} (hMembers : HasMembers json) (key : String) :
    arrayElements json key ≠ none := by
  have hField : json.field key ≠ none := by
    cases json with
    | null => exact Option.some_ne_none _
    | object members => exact Option.some_ne_none _
    | _ => exact hMembers.elim
  obtain ⟨value, hValue⟩ := Option.ne_none_iff_exists'.mp hField
  rw [arrayElements, hValue]
  exact Option.some_ne_none _

theorem answersError (w : World) : AnswersError w (replyStatus "error" w.jsonReply) :=
  ⟨_, replyStatus_run _ _, rfl, rfl, rfl⟩

/-- With an object or a null as body, both handlers either come with a complete form to the
methods for all products, then all tanks, then all pumps, in the order of the arrays, or they
answer "error" before any statement.  `api_settings_set` refuses the id -1, `api_settings_delete`
does not. -/
theorem settings_decoded_or_refused (pl : Platform) (req : Request) (json : Json) (w : World)
    (hParse : pl.parse req.body = some json) (hMembers : HasMembers json) :
    ((∀ form, Posted json form →
        Admin.apiSettingsSet pl req w =
          (do
            form.tovars.forM (setTovar pl)
            form.tanks.forM (setTank pl)
            form.trks.forM (setTrk pl)
            replyStatus "success" : Prog Unit) w.jsonReply) ∧
      ((¬ ∃ form, Posted json form) → AnswersError w (Admin.apiSettingsSet pl req w))) ∧
    ((∀ form, Named json form →
        Admin.apiSettingsDelete pl req w =
          (do
            form.tovars.forM (deleteTovar pl)
            form.tanks.forM (deleteTank pl)
            form.trks.forM fun trk => deleteTrk pl trk true
            replyStatus "success" : Prog Unit) w.jsonReply) ∧
      ((¬ ∃ form, Named json form) → AnswersError w (Admin.apiSettingsDelete pl req w))) := by
  refine ⟨⟨fun form hPosted => ?_, fun hNone => ?_⟩, fun form hNamed => ?_, fun hNone => ?_⟩
  · rw [apiSettingsSet_of_form hParse (setForm_iff.mpr hPosted)]
    simp only [SettingsForm.store, bind_assoc]
  · have hForm : setForm json = none := by
      by_contra hSome
      obtain ⟨form, hForm⟩ := Option.ne_none_iff_exists'.mp hSome
      exact hNone ⟨form, setForm_iff.mp hForm⟩
    rcases apiSettingsSet_run_of_form_none (w := w) hParse hForm with hAnswer | ⟨-, key, hKey⟩
    · rw [hAnswer]
      exact answersError w
    · exact absurd hKey (arrayElements_ne_none hMembers key)
  · rw [apiSettingsDelete_of_form hParse (eraseForm_iff.mpr hNamed)]
    simp only [SettingsForm.erase, bind_assoc]
  · have hForm : eraseForm json = none := by
      by_contra hSome
      obtain ⟨form, hForm⟩ := Option.ne_none_iff_exists'.mp hSome
      exact hNone ⟨form, eraseForm_iff.mp hForm⟩
    rw [apiSettingsDelete_run_of_form_none hParse hForm]
    exact answersError w

/-- The product of `dearerRequest` is decoded and stored. -/
theorem dearer_product_set :
    Admin.apiSettingsSet dearerPlatform dearerRequest (productWorld [true]) =
      (do
        [({ idTovar := 1, price := 60, name := ascii "A95" } : Tovar)].forM (setTovar dearerPlatform)
        ([] : List Tank).forM (setTank dearerPlatform)
        ([] : List Trk).forM (setTrk dearerPlatform)
        replyStatus "success" : Prog Unit) (productWorld [true]).jsonReply :=
  (settings_decoded_or_refused dearerPlatform dearerRequest dearerProduct (productWorld [true])
    parse_dearerRequest trivial).1.1 _ (setForm_iff.mp setForm_dearerProduct)

/-- The deletion of a product -1. -/
def markedProduct : Json :=
  .object [(ascii "tovars", .array [.object [(ascii "id_tovar", .int (-1))]])]

def markedPlatform : Platform := .exchanging .plain [markedProduct]

def markedRequest : Request :=
  { url := ascii "/api/settings/delete", body := markedProduct.plainText }

/-- `api_settings_delete` sends the statement for the id -1. -/
theorem marked_product_deleted :
    (¬ ∃ form, Named markedProduct form ∧ ¬ form.unread) ∧
      ∃ next, Admin.apiSettingsDelete markedPlatform markedRequest (stationWorld {}) = .ok ⟨⟩ next ∧
        Entry.update (.deleteTovar (-1)) true ∈ next.log ∧
        next.response.body = statusText "success" := by
  have hParse : markedPlatform.parse markedRequest.body = some markedProduct :=
    Platform.plain.parse_exchanging markedProduct
  have hForm : eraseForm markedProduct = some ⟨[{ idTovar := -1 }], [], []⟩ := by decide +kernel
  constructor
  · rintro ⟨form, hNamed, hRead⟩
    obtain rfl := Option.some.inj (hForm.symm.trans (eraseForm_iff.mpr hNamed))
    exact hRead (Or.inl (by decide))
  · rw [apiSettingsDelete_of_form hParse hForm]
    exact ⟨_, rfl, by decide, rfl⟩

end Server
end AzsServer
