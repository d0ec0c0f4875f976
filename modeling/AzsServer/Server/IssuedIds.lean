import AzsServer.Server.DecodedSettings
import AzsServer.Server.IssuedLines
import AzsServer.Server.SetThenGet

/-!
# The ids of a body in the statements

`api_settings_set` and `api_settings_delete` convert every id of the body to `int`, which narrows
integers, cuts fractions and takes the values of type `bool`.  The test for the id -1 looks at the
result.  So a statement may name a product, a tank or a pump that the body does not.
-/

namespace AzsServer
namespace Server

open Core Library Nlohmann

/-! ## Places of a body -/

/-- One of the values has the id in a member. -/
def WritesId (xs : List Json) (key : String) (id : Int) : Prop :=
  ∃ x ∈ xs, numberIn x key = some (id : Rat)

/-- The body has a nozzle with the id at a pump with the other one. -/
def WritesPist (json : Json) (idTrk idPist : Int) : Prop :=
  ∃ x ∈ elementsIn json "trks", numberIn x "id_trk" = some (idTrk : Rat) ∧
    WritesId (elementsIn x "pists") "id_pist" idPist

instance decidableWritesId (xs : List Json) (key : String) (id : Int) :
    Decidable (WritesId xs key id) :=
  inferInstanceAs (Decidable (∃ x ∈ xs, numberIn x key = some (id : Rat)))

instance decidableWritesPist (json : Json) (idTrk idPist : Int) :
    Decidable (WritesPist json idTrk idPist) :=
  inferInstanceAs (Decidable (∃ x ∈ elementsIn json "trks",
    numberIn x "id_trk" = some (idTrk : Rat) ∧ WritesId (elementsIn x "pists") "id_pist" idPist))

/-- The statement has the ids of a product, a tank, a pump and a nozzle of the body; the id of a
nozzle that is inserted is a new one. -/
def SetsTovar (x : Json) : Mysql.Update → Prop
  | .setTovar idTovar _ _ _ _ _ _ => numberIn x "id_tovar" = some (idTovar : Rat)
  | _ => False

def SetsTank (x : Json) : Mysql.Update → Prop
  | .setTank idTank idTovar _ _ =>
      numberIn x "id_tank" = some (idTank : Rat) ∧ numberIn x "id_tovar" = some (idTovar : Rat)
  | _ => False

def SetsTrk (x : Json) : Mysql.Update → Prop
  | .setComTrk idTrk _ _ _ => numberIn x "id_trk" = some (idTrk : Rat)
  | _ => False

def SetsPist (x pist : Json) : Mysql.Update → Prop
  | .insertTrk idTrk _ idTank =>
      numberIn x "id_trk" = some (idTrk : Rat) ∧ numberIn pist "id_tank" = some (idTank : Rat)
  | .updateTrk idTrk idPist idTank =>
      numberIn x "id_trk" = some (idTrk : Rat) ∧ numberIn pist "id_pist" = some (idPist : Rat) ∧
        numberIn pist "id_tank" = some (idTank : Rat)
  | _ => False

/-- The same for the statements that delete. -/
def ErasesTovar (x : Json) : Mysql.Update → Prop
  | .deleteTovar idTovar => numberIn x "id_tovar" = some (idTovar : Rat)
  | _ => False

def ErasesTank (x : Json) : Mysql.Update → Prop
  | .deleteTank idTank => numberIn x "id_tank" = some (idTank : Rat)
  | _ => False

def ErasesTrk (x : Json) : Mysql.Update → Prop
  | .deleteComTrk idTrk => numberIn x "id_trk" = some (idTrk : Rat)
  | _ => False

def ErasesPist (x pist : Json) : Mysql.Update → Prop
  | .deletePist idTrk idPist =>
      numberIn x "id_trk" = some (idTrk : Rat) ∧ numberIn pist "id_pist" = some (idPist : Rat)
  | _ => False

/-- The statements for a pump of the body: its own one, and behind it the question for the largest
nozzle and those for a beginning of the nozzles. -/
def setTrkPlaces (x : Json) : Language Entry :=
  sent (SetsTrk x) * (1 + askedMax (fun idTrk => numberIn x "id_trk" = some (idTrk : Rat)) *
    upTo (fun pist => sent (SetsPist x pist)) (elementsIn x "pists"))

/-- The statements of `api_settings_set`, each one with the ids at its place of the body. -/
def setPlaces (json : Json) : Language Entry :=
  ((elementsIn json "tovars").map fun x => sent (SetsTovar x)).prod *
    (((elementsIn json "tanks").map fun x => sent (SetsTank x)).prod *
      ((elementsIn json "trks").map setTrkPlaces).prod)

/-- The statements for a pump, or for its nozzles if it has some. -/
def eraseTrkPlaces (x : Json) : Language Entry :=
  if elementsIn x "pists" = [] then sent (ErasesTrk x)
  else ((elementsIn x "pists").map fun pist => sent (ErasesPist x pist)).prod

/-- The statements of `api_settings_delete`. -/
def erasePlaces (json : Json) : Language Entry :=
  ((elementsIn json "tovars").map fun x => sent (ErasesTovar x)).prod *
    (((elementsIn json "tanks").map fun x => sent (ErasesTank x)).prod *
      ((elementsIn json "trks").map eraseTrkPlaces).prod)

/-- The rows whose ids are not in the body stay as they are. -/
structure KeepsOthers (json : Json) (t next : Mysql.Tables) : Prop where
  tovar : KeepsRows (fun row : Mysql.TovarRow =>
    WritesId (elementsIn json "tovars") "id_tovar" row.idTovar) t.tovar next.tovar
  tank : KeepsRows (fun row : Mysql.TankRow =>
    WritesId (elementsIn json "tanks") "id_tank" row.idTank) t.tank next.tank
  comTrk : KeepsRows (fun row : Mysql.ComTrkRow =>
    WritesId (elementsIn json "trks") "id_trk" row.idTrk) t.comTrk next.comTrk
  trk : KeepsRows (fun row : Mysql.TrkRow => WritesPist json row.idTrk row.idPist) t.trk next.trk
  locConst : next.locConst = t.locConst
  locUsers : next.locUsers = t.locUsers
  refUsers : next.refUsers = t.refUsers
  smena : next.smena = t.smena

/-- Whenever the handler answers "success", every statement has the ids that are written at its
place of the body, and the rows with other ids have been left alone. -/
def KeepsIds (json : Json) (places : Language Entry) (handler : Prog Unit) : Prop :=
  ∀ w next, handler w = .ok ⟨⟩ next → next.response.body = statusText "success" →
    Adds World.log places w next ∧ ∀ place, KeepsOthers json (w.mysql place) (next.mysql place)

/-! ## The conditions -/

/-- The ids of a nozzle are of the type `int`; one that is read as 0 stands for a new nozzle. -/
structure WholeNozzle (x : Json) : Prop where
  tank : WholeIn x "id_tank"
  id : WholeIn x "id_pist" ∨ fieldInt x "id_pist" = some 0

/-- The ids of a body for `api_settings_set` are of the type `int`. -/
structure SetWhole (json : Json) : Prop where
  tovars : ∀ x ∈ elementsIn json "tovars", WholeIn x "id_tovar"
  tanks : ∀ x ∈ elementsIn json "tanks", WholeIn x "id_tank" ∧ WholeIn x "id_tovar"
  trks : ∀ x ∈ elementsIn json "trks",
    WholeIn x "id_trk" ∧ ∀ pist ∈ elementsIn x "pists", WholeNozzle pist

/-- The ids of a body for `api_settings_delete` are of the type `int`. -/
structure EraseWhole (json : Json) : Prop where
  tovars : ∀ x ∈ elementsIn json "tovars", WholeIn x "id_tovar"
  tanks : ∀ x ∈ elementsIn json "tanks", WholeIn x "id_tank"
  trks : ∀ x ∈ elementsIn json "trks",
    WholeIn x "id_trk" ∧ ∀ pist ∈ elementsIn x "pists", WholeIn pist "id_pist"

/-- The names of the products stay inside their quotes, or MySQL reads a statement in which they
do not so that it leaves the rows of other products alone. -/
def InsideQuotes (engine : Mysql.Engine) (json : Json) : Prop :=
  ∀ x ∈ elementsIn json "tovars", (jsonToTovar x).plain = true ∨
    ∀ t rows, engine.other t (jsonToTovar x).update.sql = some rows →
      KeepsRows (fun row : Mysql.TovarRow =>
        WritesId (elementsIn json "tovars") "id_tovar" row.idTovar) t.tovar rows

/-! ## Elements and what is read of them -/

section Elements

variable {x pist : Json} {key : String} {n : Int} {json : Json} {form : SettingsForm} {tovar : Tovar}
  {tank : Tank} {trk : Trk} {nozzle : Pist}

/-- An id is of the type `int` exactly if the one that is read is the one that is written. -/
theorem wholeIn_iff (hRead : fieldInt x key = some n) :
    WholeIn x key ↔ numberIn x key = some (n : Rat) := by
  constructor
  · exact fun hWhole => hWhole.numberIn_eq hRead
  · intro hNumber
    obtain ⟨value, -, hValue⟩ := Option.bind_eq_some_iff.mp hRead
    exact ⟨n, hNumber, Json.isInt32_of_toInt? hValue⟩

theorem HasInt.wholeIn_iff (hInt : HasInt x key n) :
    WholeIn x key ↔ numberIn x key = some (n : Rat) := Server.wholeIn_iff (fieldInt_iff.mpr hInt)

theorem setsTovar_iff (hIn : TovarIn x tovar) :
    SetsTovar x tovar.update ↔ WholeIn x "id_tovar" := hIn.idTovar.wholeIn_iff.symm

theorem setsTank_iff (hIn : TankIn x tank) :
    SetsTank x tank.update ↔ WholeIn x "id_tank" ∧ WholeIn x "id_tovar" :=
  (and_congr hIn.idTank.wholeIn_iff hIn.idTovar.wholeIn_iff).symm

theorem setsTrk_iff (hIn : TrkIn x trk) : SetsTrk x trk.update ↔ WholeIn x "id_trk" :=
  hIn.idTrk.wholeIn_iff.symm

/-- At a pump whose id is of the type `int` the statements for a nozzle have the ids of the body
exactly if those of the nozzle are. -/
theorem setsPist_of_whole (hPump : numberIn x "id_trk" = some (trk.idTrk : Rat))
    (hIn : PistIn pist nozzle) (hWhole : WholeNozzle pist) {u : Mysql.Update}
    (hUpdate : PistUpdate trk.idTrk nozzle u) : SetsPist x pist u := by
  have hTank := hIn.idTank.wholeIn_iff.mp hWhole.tank
  cases u with
  | insertTrk idTrk idPist idTank =>
      obtain ⟨-, rfl, rfl⟩ := hUpdate
      exact ⟨hPump, hTank⟩
  | updateTrk idTrk idPist idTank =>
      obtain ⟨hOld, rfl, rfl, rfl⟩ := hUpdate
      have hZero : fieldInt pist "id_pist" ≠ some 0 := by
        rw [fieldInt_iff.mpr hIn.idPist]
        exact fun hSame => hOld (Option.some.inj hSame)
      exact ⟨hPump, hIn.idPist.wholeIn_iff.mp (hWhole.id.resolve_right hZero), hTank⟩
  | _ => exact hUpdate.elim

theorem wholeNozzle_of_setsPist (hIn : PistIn pist nozzle) {u : Mysql.Update}
    (hUpdate : PistUpdate trk.idTrk nozzle u) (hSets : SetsPist x pist u) : WholeNozzle pist := by
  cases u with
  | insertTrk idTrk idPist idTank =>
      obtain ⟨hNew, -, rfl⟩ := hUpdate
      refine ⟨hIn.idTank.wholeIn_iff.mpr hSets.2, Or.inr ?_⟩
      rw [fieldInt_iff.mpr hIn.idPist, hNew]
  | updateTrk idTrk idPist idTank =>
      obtain ⟨-, -, rfl, rfl⟩ := hUpdate
      exact ⟨hIn.idTank.wholeIn_iff.mpr hSets.2.2, Or.inl (hIn.idPist.wholeIn_iff.mpr hSets.2.1)⟩
  | _ => exact hUpdate.elim

theorem elementsIn_of_arrayElements {elements : List Json}
    (hElements : arrayElements x key = some elements) : elementsIn x key = elements := by
  rw [elementsIn, hElements]
  rfl

/-- The elements of a posted body. -/
theorem Posted.elements (hPosted : Posted json form) :
    List.Forall₂ TovarIn (elementsIn json "tovars") form.tovars ∧
      List.Forall₂ TankIn (elementsIn json "tanks") form.tanks ∧
      List.Forall₂ TrkIn (elementsIn json "trks") form.trks := by
  obtain ⟨⟨tovars, hTovars, hTovarsIn⟩, ⟨tanks, hTanks, hTanksIn⟩, trks, hTrks, hTrksIn⟩ := hPosted
  rw [elementsIn_of_arrayElements hTovars, elementsIn_of_arrayElements hTanks,
    elementsIn_of_arrayElements hTrks]
  exact ⟨hTovarsIn.imp fun _ _ hIn => hIn.1, hTanksIn.imp fun _ _ hIn => hIn.1,
    hTrksIn.imp fun _ _ hIn => hIn.1⟩

theorem TrkIn.elements (hIn : TrkIn x trk) :
    List.Forall₂ PistIn (elementsIn x "pists") trk.pists := by
  rcases hIn.pists with ⟨values, hMember, hAll⟩ | ⟨hNone, hNil⟩
  · have hElements : elementsIn x "pists" = values := by
      rw [elementsIn, arrayElements, field_of_hasMember hMember]
      rfl
    rw [hElements]
    exact hAll
  · -- a null and an empty object have no elements
    have hElements : elementsIn x "pists" = [] := by
      cases hField : x.field "pists" with
      | none => rw [elementsIn, arrayElements, hField]; rfl
      | some value =>
          rw [elementsIn, arrayElements, hField]
          by_cases hNull : value = .null
          · rw [hNull]
            rfl
          · rcases hNone value (hasMember_of_field hField hNull) with rfl | rfl
            · rfl
            · rfl
    rw [hElements, hNil]
    exact .nil

theorem Named.elements (hNamed : Named json form) :
    List.Forall₂ NamesTovar (elementsIn json "tovars") form.tovars ∧
      List.Forall₂ NamesTank (elementsIn json "tanks") form.tanks ∧
      List.Forall₂ NamesTrk (elementsIn json "trks") form.trks := by
  obtain ⟨⟨tovars, hTovars, hTovarsIn⟩, ⟨tanks, hTanks, hTanksIn⟩, trks, hTrks, hTrksIn⟩ := hNamed
  rw [elementsIn_of_arrayElements hTovars, elementsIn_of_arrayElements hTanks,
    elementsIn_of_arrayElements hTrks]
  exact ⟨hTovarsIn, hTanksIn, hTrksIn⟩

theorem NamesTrk.elements (hNames : NamesTrk x trk) :
    List.Forall₂ NamesPist (elementsIn x "pists") trk.pists := by
  obtain ⟨elements, hElements, hAll⟩ := hNames.pists
  rw [elementsIn_of_arrayElements hElements]
  exact hAll

end Elements

/-! ## The statements -/

section Lines

variable {x : Json} {json : Json} {form : SettingsForm} {trk : Trk}

theorem noLonger_setTrkPlaces (hIn : TrkIn x trk) : NoLonger (setTrkPlaces x) trk.wholeLines := by
  have hPists : NoLonger (upTo (fun pist => sent (SetsPist x pist)) (elementsIn x "pists"))
      (trk.pists.map fun pist => sent (PistUpdate trk.idTrk pist)).prod :=
    .upTo_prod (fun _ _ _ => noLonger_sent _ _) hIn.elements
  exact (noLonger_sent _ _).mul ((NoLonger.one _).add ((noLonger_askedMax _ _).mul hPists))

/-- The statements of a pump stand at its place if its ids are of the type `int`. -/
theorem trkLines_le (hIn : TrkIn x trk) (hId : WholeIn x "id_trk")
    (hPists : ∀ pist ∈ elementsIn x "pists", WholeNozzle pist) : trk.lines ≤ setTrkPlaces x := by
  have hPump := hIn.idTrk.wholeIn_iff.mp hId
  have hUpdate : sent (· = trk.update) ≤ sent (SetsTrk x) :=
    sent_le fun _ hSame => hSame ▸ (setsTrk_iff hIn).mpr hId
  have hAsked : askedMax (· = trk.idTrk) ≤
      askedMax (fun idTrk => numberIn x "id_trk" = some (idTrk : Rat)) :=
    askedMax_le fun _ hSame => hSame ▸ hPump
  have hNozzles : upTo (fun pist => sent (PistUpdate trk.idTrk pist)) trk.pists ≤
      upTo (fun pist => sent (SetsPist x pist)) (elementsIn x "pists") := by
    refine upTo_le_upTo hPists (fun pist nozzle hPist hWhole => ?_) hIn.elements
    exact sent_le fun u hUpdate => setsPist_of_whole hPump hPist hWhole hUpdate
  exact mul_le_mul' hUpdate (add_le_add le_rfl (mul_le_mul' hAsked hNozzles))

/-- If all its statements stand at its place, they are. -/
theorem whole_of_meet_trk (hIn : TrkIn x trk) (hMeet : Meet (setTrkPlaces x) trk.wholeLines) :
    WholeIn x "id_trk" ∧ ∀ pist ∈ elementsIn x "pists", WholeNozzle pist := by
  have hPists : NoLonger (upTo (fun pist => sent (SetsPist x pist)) (elementsIn x "pists"))
      (trk.pists.map fun pist => sent (PistUpdate trk.idTrk pist)).prod :=
    .upTo_prod (fun _ _ _ => noLonger_sent _ _) hIn.elements
  have hAsked := (noLonger_askedMax (fun idTrk => numberIn x "id_trk" = some (idTrk : Rat))
    (· = trk.idTrk)).mul hPists
  obtain ⟨hFirst, hRest⟩ := hMeet.mul (noLonger_sent _ _) ((NoLonger.one _).add hAsked)
  -- the question for the largest nozzle has been sent
  have hNone : [] ∉ askedMax (· = trk.idTrk) *
      (trk.pists.map fun pist => sent (PistUpdate trk.idTrk pist)).prod := by
    rintro ⟨_, ⟨idTrk, executed, -, rfl⟩, tail, -, hEmpty⟩
    cases hEmpty
  obtain ⟨-, hNozzles⟩ := (hRest.of_one_add hNone).mul (noLonger_askedMax _ _) hPists
  constructor
  · obtain ⟨u, hSets, rfl⟩ := meet_sent_iff.mp hFirst
    exact (setsTrk_iff hIn).mp hSets
  · refine Meet.upTo_prod (fun _ _ _ => noLonger_sent _ _) (fun _ => nil_notMem_sent _)
      (fun pist nozzle hPist hOne => ?_) hIn.elements hNozzles
    obtain ⟨u, hSets, hUpdate⟩ := meet_sent_iff.mp hOne
    exact wholeNozzle_of_setsPist hPist hUpdate hSets

theorem storeLines_le (hPosted : Posted json form) (hWhole : SetWhole json) :
    form.storeLines Trk.lines ≤ setPlaces json := by
  obtain ⟨hTovars, hTanks, hTrks⟩ := hPosted.elements
  refine mul_le_mul' (prod_le_prod hWhole.tovars (fun x tovar hIn hId => ?_) hTovars)
    (mul_le_mul' (prod_le_prod hWhole.tanks (fun x tank hIn hIds => ?_) hTanks)
      (prod_le_prod hWhole.trks (fun x trk hIn hIds => ?_) hTrks))
  · exact sent_le fun u hSame => hSame ▸ (setsTovar_iff hIn).mpr hId
  · exact sent_le fun u hSame => hSame ▸ (setsTank_iff hIn).mpr hIds
  · exact trkLines_le hIn hIds.1 hIds.2

theorem setWhole_of_meet (hPosted : Posted json form)
    (hMeet : Meet (setPlaces json) (form.storeLines Trk.wholeLines)) : SetWhole json := by
  obtain ⟨hTovars, hTanks, hTrks⟩ := hPosted.elements
  have hShort : NoLonger ((elementsIn json "trks").map setTrkPlaces).prod
      (form.trks.map Trk.wholeLines).prod := .prod (fun _ _ => noLonger_setTrkPlaces) hTrks
  have hTankShort : NoLonger ((elementsIn json "tanks").map fun x => sent (SetsTank x)).prod
      (form.tanks.map fun tank => sent (· = tank.update)).prod :=
    .prod (fun _ _ _ => noLonger_sent _ _) hTanks
  obtain ⟨hTovarMeet, hRest⟩ := hMeet.mul (.prod (fun _ _ _ => noLonger_sent _ _) hTovars)
    (hTankShort.mul hShort)
  obtain ⟨hTankMeet, hTrkMeet⟩ := hRest.mul hTankShort hShort
  constructor
  · refine Meet.prod (fun _ _ _ => noLonger_sent _ _) (fun x tovar hIn hOne => ?_) hTovars hTovarMeet
    obtain ⟨u, hSets, rfl⟩ := meet_sent_iff.mp hOne
    exact (setsTovar_iff hIn).mp hSets
  · refine Meet.prod (fun _ _ _ => noLonger_sent _ _) (fun x tank hIn hOne => ?_) hTanks hTankMeet
    obtain ⟨u, hSets, rfl⟩ := meet_sent_iff.mp hOne
    exact (setsTank_iff hIn).mp hSets
  · exact Meet.prod (fun x trk hIn => noLonger_setTrkPlaces hIn)
      (fun x trk hIn hOne => whole_of_meet_trk hIn hOne) hTrks hTrkMeet

/-- A pump of a body for `api_settings_delete` has as many nozzles as are read of it. -/
theorem NamesTrk.pists_eq_nil_iff (hNames : NamesTrk x trk) :
    elementsIn x "pists" = [] ↔ trk.pists = [] := by
  have hLength := hNames.elements.length_eq
  rw [← List.length_eq_zero_iff, hLength, List.length_eq_zero_iff]

theorem noLonger_eraseTrkPlaces (hNames : NamesTrk x trk) :
    NoLonger (eraseTrkPlaces x) trk.eraseLines := by
  unfold eraseTrkPlaces Trk.eraseLines
  by_cases hNone : trk.pists = []
  · rw [if_pos hNone, if_pos (hNames.pists_eq_nil_iff.mpr hNone)]
    exact noLonger_sent _ _
  · rw [if_neg hNone, if_neg (hNames.pists_eq_nil_iff.not.mpr hNone)]
    exact .prod (fun _ _ _ => noLonger_sent _ _) hNames.elements

/-- The statements that delete a pump or its nozzles stand at their place if its ids are of the
type `int`. -/
theorem eraseTrkLines_le (hNames : NamesTrk x trk) (hId : WholeIn x "id_trk")
    (hPists : ∀ pist ∈ elementsIn x "pists", WholeIn pist "id_pist") :
    trk.eraseLines ≤ eraseTrkPlaces x := by
  have hPump := hNames.idTrk.wholeIn_iff.mp hId
  unfold eraseTrkPlaces Trk.eraseLines
  by_cases hNone : trk.pists = []
  · rw [if_pos hNone, if_pos (hNames.pists_eq_nil_iff.mpr hNone)]
    exact sent_le fun u hSame => hSame ▸ hPump
  · rw [if_neg hNone, if_neg (hNames.pists_eq_nil_iff.not.mpr hNone)]
    refine prod_le_prod hPists (fun pist nozzle hPist hWhole => ?_) hNames.elements
    exact sent_le fun u hSame => hSame ▸ ⟨hPump, hPist.1.wholeIn_iff.mp hWhole⟩

theorem whole_of_meet_eraseTrk (hNames : NamesTrk x trk)
    (hMeet : Meet (eraseTrkPlaces x) trk.eraseLines) :
    WholeIn x "id_trk" ∧ ∀ pist ∈ elementsIn x "pists", WholeIn pist "id_pist" := by
  have hPump := hNames.idTrk.wholeIn_iff
  unfold eraseTrkPlaces Trk.eraseLines at hMeet
  by_cases hNone : trk.pists = []
  · have hNil := hNames.pists_eq_nil_iff.mpr hNone
    rw [if_pos hNone, if_pos hNil] at hMeet
    obtain ⟨u, hErases, rfl⟩ := meet_sent_iff.mp hMeet
    rw [hNil]
    exact ⟨hPump.mpr hErases, fun _ hMem => by cases hMem⟩
  · have hSome := hNames.pists_eq_nil_iff.not.mpr hNone
    rw [if_neg hNone, if_neg hSome] at hMeet
    have hBoth : ∀ pist ∈ elementsIn x "pists", WholeIn x "id_trk" ∧ WholeIn pist "id_pist" := by
      refine Meet.prod (fun _ _ _ => noLonger_sent _ _) (fun pist nozzle hPist hOne => ?_)
        hNames.elements hMeet
      obtain ⟨u, hErases, rfl⟩ := meet_sent_iff.mp hOne
      exact ⟨hPump.mpr hErases.1, hPist.1.wholeIn_iff.mpr hErases.2⟩
    -- the pump has a nozzle, whose statement has its id
    obtain ⟨pist, hMem⟩ := List.exists_mem_of_ne_nil _ hSome
    exact ⟨(hBoth pist hMem).1, fun other hIn => (hBoth other hIn).2⟩

theorem eraseLines_le (hNamed : Named json form) (hWhole : EraseWhole json) :
    form.eraseLines ≤ erasePlaces json := by
  obtain ⟨hTovars, hTanks, hTrks⟩ := hNamed.elements
  refine mul_le_mul' (prod_le_prod hWhole.tovars (fun x tovar hNames hId => ?_) hTovars)
    (mul_le_mul' (prod_le_prod hWhole.tanks (fun x tank hNames hId => ?_) hTanks)
      (prod_le_prod hWhole.trks (fun x trk hNames hIds => ?_) hTrks))
  · exact sent_le fun u hSame => hSame ▸ hNames.1.wholeIn_iff.mp hId
  · exact sent_le fun u hSame => hSame ▸ hNames.1.wholeIn_iff.mp hId
  · exact eraseTrkLines_le hNames hIds.1 hIds.2

theorem eraseWhole_of_meet (hNamed : Named json form)
    (hMeet : Meet (erasePlaces json) form.eraseLines) : EraseWhole json := by
  obtain ⟨hTovars, hTanks, hTrks⟩ := hNamed.elements
  have hShort : NoLonger ((elementsIn json "trks").map eraseTrkPlaces).prod
      (form.trks.map Trk.eraseLines).prod := .prod (fun _ _ => noLonger_eraseTrkPlaces) hTrks
  have hTankShort : NoLonger ((elementsIn json "tanks").map fun x => sent (ErasesTank x)).prod
      (form.tanks.map fun tank => sent (· = .deleteTank tank.idTank)).prod :=
    .prod (fun _ _ _ => noLonger_sent _ _) hTanks
  obtain ⟨hTovarMeet, hRest⟩ := hMeet.mul (.prod (fun _ _ _ => noLonger_sent _ _) hTovars)
    (hTankShort.mul hShort)
  obtain ⟨hTankMeet, hTrkMeet⟩ := hRest.mul hTankShort hShort
  constructor
  · refine Meet.prod (fun _ _ _ => noLonger_sent _ _) (fun x tovar hNames hOne => ?_) hTovars
      hTovarMeet
    obtain ⟨u, hErases, rfl⟩ := meet_sent_iff.mp hOne
    exact hNames.1.wholeIn_iff.mpr hErases
  · refine Meet.prod (fun _ _ _ => noLonger_sent _ _) (fun x tank hNames hOne => ?_) hTanks
      hTankMeet
    obtain ⟨u, hErases, rfl⟩ := meet_sent_iff.mp hOne
    exact hNames.1.wholeIn_iff.mpr hErases
  · exact Meet.prod (fun x trk hNames => noLonger_eraseTrkPlaces hNames)
      (fun x trk hNames hOne => whole_of_meet_eraseTrk hNames hOne) hTrks hTrkMeet

end Lines

/-! ## The rows -/

namespace KeepsOthers

variable {json : Json} {t middle next : Mysql.Tables}

theorem refl (json : Json) (t : Mysql.Tables) : KeepsOthers json t t :=
  ⟨.refl _ _, .refl _ _, .refl _ _, .refl _ _, rfl, rfl, rfl, rfl⟩

theorem trans (hFirst : KeepsOthers json t middle) (hRest : KeepsOthers json middle next) :
    KeepsOthers json t next where
  tovar := hFirst.tovar.trans hRest.tovar
  tank := hFirst.tank.trans hRest.tank
  comTrk := hFirst.comTrk.trans hRest.comTrk
  trk := hFirst.trk.trans hRest.trk
  locConst := hRest.locConst.trans hFirst.locConst
  locUsers := hRest.locUsers.trans hFirst.locUsers
  refUsers := hRest.refUsers.trans hFirst.refUsers
  smena := hRest.smena.trans hFirst.smena

end KeepsOthers

/-- The lines of statements that leave the other rows alone. -/
def LeavesOthers (engine : Mysql.Engine) (json : Json) : Entry → Prop
  | .update u _ => ∀ t next, u.run engine t = some next → KeepsOthers json t next
  | _ => True

section Rows

variable {pl : Platform} {json x : Json} {form : SettingsForm}

/-- A program with such statements only. -/
theorem keepsOthers_of_calls {α : Type} {m : Prog α} {w next : World} {a : α}
    (hCalls : Calls pl (LeavesOthers pl.mysql json) False m) (hRun : m w = .ok a next) :
    ∀ place, KeepsOthers json (w.mysql place) (next.mysql place) := by
  have hKeeps : Keeps (fun after => ∀ place, KeepsOthers json (w.mysql place) (after.mysql place))
      (fun _ => True) m := by
    apply hCalls.keeps_of_steps
    · exact fun _ hInv => hInv
    · exact fun _ _ hInv _ => hInv
    · intro after place u tables hInv hLine hTables other
      by_cases hPlace : other = place
      · subst hPlace
        show KeepsOthers json _ (Function.update after.mysql other tables other)
        rw [Function.update_self]
        exact (hInv other).trans (hLine _ _ hTables)
      · show KeepsOthers json _ (Function.update after.mysql place tables other)
        rw [Function.update_of_ne hPlace]
        exact hInv other
    · exact fun _ hInv => hInv
    · exact fun _ _ hInv => hInv
    · exact fun _ _ _ _ _ => trivial
    · exact fun _ _ => trivial
  have hEnd := hKeeps w fun place => .refl json _
  rw [hRun] at hEnd
  exact hEnd

theorem leavesOthers_tovar {tovar : Tovar} {executed : Bool}
    (hId : WritesId (elementsIn json "tovars") "id_tovar" tovar.idTovar)
    (hQuotes : tovar.plain = true ∨ ∀ t rows, pl.mysql.other t tovar.update.sql = some rows →
      KeepsRows (fun row : Mysql.TovarRow =>
        WritesId (elementsIn json "tovars") "id_tovar" row.idTovar) t.tovar rows) :
    LeavesOthers pl.mysql json (.update tovar.update executed) := by
  intro t next hRun
  have hRun : storeTovar pl.mysql tovar t = some next := hRun
  by_cases hPlain : tovar.plain = true
  · rw [storeTovar_of_plain pl.mysql t hPlain] at hRun
    obtain rfl := Option.some.inj hRun
    exact { KeepsOthers.refl json t with tovar := .update fun row hSame => hSame ▸ hId }
  · rw [storeTovar_of_not_plain pl.mysql t hPlain] at hRun
    obtain ⟨rows, hRows, rfl⟩ := Option.map_eq_some_iff.mp hRun
    exact { KeepsOthers.refl json t with tovar := hQuotes.resolve_left hPlain t rows hRows }

theorem leavesOthers_tank {tank : Tank} {executed : Bool}
    (hId : WritesId (elementsIn json "tanks") "id_tank" tank.idTank) :
    LeavesOthers pl.mysql json (.update tank.update executed) := by
  intro t next hRun
  obtain rfl := Option.some.inj hRun
  exact { KeepsOthers.refl json t with tank := .update fun row hSame => hSame ▸ hId }

theorem leavesOthers_trk {trk : Trk} {executed : Bool}
    (hId : WritesId (elementsIn json "trks") "id_trk" trk.idTrk) :
    LeavesOthers pl.mysql json (.update trk.update executed) := by
  intro t next hRun
  obtain rfl := Option.some.inj hRun
  exact { KeepsOthers.refl json t with comTrk := .update fun row hSame => hSame ▸ hId }

/-- A new nozzle changes no row, another one the row that it has at its pump. -/
theorem leavesOthers_pist {idTrk : Int} {pist : Pist} {executed : Bool} {u : Mysql.Update}
    (hId : pist.idPist ≠ 0 → WritesPist json idTrk pist.idPist) (hUpdate : PistUpdate idTrk pist u) :
    LeavesOthers pl.mysql json (.update u executed) := by
  intro t next hRun
  cases u with
  | insertTrk trk id tank =>
      obtain rfl := Option.some.inj hRun
      exact { KeepsOthers.refl json t with trk := .append _ _ _ }
  | updateTrk trk id tank =>
      obtain ⟨hOld, rfl, rfl, rfl⟩ := hUpdate
      obtain rfl := Option.some.inj hRun
      refine { KeepsOthers.refl json t with trk := .update fun row hSame => ?_ }
      rw [hSame.1, hSame.2]
      exact hId hOld
  | _ => exact hUpdate.elim

theorem calls_setPists {idTrk maxId : Int} (n : Int) {pists : List Pist}
    (hIds : ∀ pist ∈ pists, pist.idPist ≠ 0 → WritesPist json idTrk pist.idPist) :
    Calls pl (LeavesOthers pl.mysql json) False (setPists pl idTrk maxId n pists) := by
  induction pists generalizing n with
  | nil => exact .pure PUnit.unit
  | cons pist pists ih =>
      have hRest := fun k => ih k fun other hMem => hIds other (List.mem_cons_of_mem pist hMem)
      have hHead := hIds pist List.mem_cons_self
      unfold setPists
      by_cases hNew : pist.idPist = 0
      · rw [if_pos hNew]
        exact .bind (.update fun _ => leavesOthers_pist hHead ⟨hNew, rfl, rfl⟩) fun _ => hRest _
      · rw [if_neg hNew]
        exact .bind (.update fun _ => leavesOthers_pist hHead ⟨hNew, rfl, rfl, rfl⟩) fun _ => hRest _

theorem calls_setTrk {trk : Trk} (hId : WritesId (elementsIn json "trks") "id_trk" trk.idTrk)
    (hIds : ∀ pist ∈ trk.pists, pist.idPist ≠ 0 → WritesPist json trk.idTrk pist.idPist) :
    Calls pl (LeavesOthers pl.mysql json) False (setTrk pl trk) :=
  .guarded (.bind (.update fun _ => leavesOthers_trk hId) fun _ =>
    .bind (.query _ fun _ => trivial) fun _ => calls_setPists 0 hIds) ⟨⟩

theorem calls_executeSql {u : Mysql.Update}
    (hLeaves : ∀ executed, LeavesOthers pl.mysql json (.update u executed)) :
    Calls pl (LeavesOthers pl.mysql json) False (discard (executeSql pl u)) :=
  .discard (.guarded (.bind (.update hLeaves) fun _ => .pure true) false)

/-- A deletion takes no row with another id. -/
theorem leavesOthers_deleteTovar {idTovar : Int} {executed : Bool}
    (hId : WritesId (elementsIn json "tovars") "id_tovar" idTovar) :
    LeavesOthers pl.mysql json (.update (.deleteTovar idTovar) executed) := by
  intro t next hRun
  obtain rfl := Option.some.inj hRun
  exact { KeepsOthers.refl json t with tovar := .delete fun row hSame => hSame ▸ hId }

theorem leavesOthers_deleteTank {idTank : Int} {executed : Bool}
    (hId : WritesId (elementsIn json "tanks") "id_tank" idTank) :
    LeavesOthers pl.mysql json (.update (.deleteTank idTank) executed) := by
  intro t next hRun
  obtain rfl := Option.some.inj hRun
  exact { KeepsOthers.refl json t with tank := .delete fun row hSame => hSame ▸ hId }

theorem leavesOthers_deleteComTrk {idTrk : Int} {executed : Bool}
    (hId : WritesId (elementsIn json "trks") "id_trk" idTrk) :
    LeavesOthers pl.mysql json (.update (.deleteComTrk idTrk) executed) := by
  intro t next hRun
  obtain rfl := Option.some.inj hRun
  exact { KeepsOthers.refl json t with comTrk := .delete fun row hSame => hSame ▸ hId }

theorem leavesOthers_deletePist {idTrk idPist : Int} {executed : Bool}
    (hId : WritesPist json idTrk idPist) :
    LeavesOthers pl.mysql json (.update (.deletePist idTrk idPist) executed) := by
  intro t next hRun
  obtain rfl := Option.some.inj hRun
  refine { KeepsOthers.refl json t with trk := .delete fun row hSame => ?_ }
  rw [hSame.1, hSame.2]
  exact hId

theorem jsonToTovar_of_tovarIn {tovar : Tovar} (hIn : TovarIn x tovar) : jsonToTovar x = tovar := by
  rw [jsonToTovar, readTovar_iff.mpr hIn]
  rfl

/-- With ids of the type `int` and names that do no harm, the loops of `api_settings_set` leave
the other rows alone. -/
theorem calls_store (hPosted : Posted json form) (hWhole : SetWhole json)
    (hQuotes : InsideQuotes pl.mysql json) :
    Calls pl (LeavesOthers pl.mysql json) False (form.store pl) := by
  obtain ⟨hTovars, hTanks, hTrks⟩ := hPosted.elements
  have hTovar : ∀ tovar ∈ form.tovars, Calls pl (LeavesOthers pl.mysql json) False (setTovar pl tovar) := by
    intro tovar hMem
    obtain ⟨x, hX, hIn⟩ := exists_mem_of_forall₂ hTovars hMem
    have hPlain := hQuotes x hX
    rw [jsonToTovar_of_tovarIn hIn] at hPlain
    have hId := hIn.idTovar.wholeIn_iff.mp (hWhole.tovars x hX)
    exact .guarded (.update fun _ => leavesOthers_tovar ⟨x, hX, hId⟩ hPlain) ⟨⟩
  have hTank : ∀ tank ∈ form.tanks, Calls pl (LeavesOthers pl.mysql json) False (setTank pl tank) := by
    intro tank hMem
    obtain ⟨x, hX, hIn⟩ := exists_mem_of_forall₂ hTanks hMem
    have hId := hIn.idTank.wholeIn_iff.mp (hWhole.tanks x hX).1
    exact .guarded (.update fun _ => leavesOthers_tank ⟨x, hX, hId⟩) ⟨⟩
  have hTrk : ∀ trk ∈ form.trks, Calls pl (LeavesOthers pl.mysql json) False (setTrk pl trk) := by
    intro trk hMem
    obtain ⟨x, hX, hIn⟩ := exists_mem_of_forall₂ hTrks hMem
    obtain ⟨hWholeId, hNozzles⟩ := hWhole.trks x hX
    have hId := hIn.idTrk.wholeIn_iff.mp hWholeId
    refine calls_setTrk ⟨x, hX, hId⟩ fun pist hPist hOld => ⟨x, hX, hId, ?_⟩
    obtain ⟨y, hY, hPistIn⟩ := exists_mem_of_forall₂ hIn.elements hPist
    have hZero : fieldInt y "id_pist" ≠ some 0 := by
      rw [fieldInt_iff.mpr hPistIn.idPist]
      exact fun hSame => hOld (Option.some.inj hSame)
    exact ⟨y, hY, hPistIn.idPist.wholeIn_iff.mp ((hNozzles y hY).id.resolve_right hZero)⟩
  exact .bind (.forM_mem hTovar) fun _ => .bind (.forM_mem hTank) fun _ => .forM_mem hTrk

/-- And so do those of `api_settings_delete`. -/
theorem calls_erase (hNamed : Named json form) (hWhole : EraseWhole json) :
    Calls pl (LeavesOthers pl.mysql json) False (form.erase pl) := by
  obtain ⟨hTovars, hTanks, hTrks⟩ := hNamed.elements
  have hTovar : ∀ tovar ∈ form.tovars,
      Calls pl (LeavesOthers pl.mysql json) False (deleteTovar pl tovar) := by
    intro tovar hMem
    obtain ⟨x, hX, hNames⟩ := exists_mem_of_forall₂ hTovars hMem
    have hId := hNames.1.wholeIn_iff.mp (hWhole.tovars x hX)
    exact calls_executeSql fun _ => leavesOthers_deleteTovar ⟨x, hX, hId⟩
  have hTank : ∀ tank ∈ form.tanks,
      Calls pl (LeavesOthers pl.mysql json) False (deleteTank pl tank) := by
    intro tank hMem
    obtain ⟨x, hX, hNames⟩ := exists_mem_of_forall₂ hTanks hMem
    have hId := hNames.1.wholeIn_iff.mp (hWhole.tanks x hX)
    exact calls_executeSql fun _ => leavesOthers_deleteTank ⟨x, hX, hId⟩
  have hTrk : ∀ trk ∈ form.trks,
      Calls pl (LeavesOthers pl.mysql json) False (deleteTrk pl trk true) := by
    intro trk hMem
    obtain ⟨x, hX, hNames⟩ := exists_mem_of_forall₂ hTrks hMem
    obtain ⟨hWholeId, hNozzles⟩ := hWhole.trks x hX
    have hId := hNames.idTrk.wholeIn_iff.mp hWholeId
    have hSmart : ¬ true = false := by simp
    unfold deleteTrk
    rw [if_neg hSmart]
    refine .ite ?_ (.forM_mem fun pist hPist => ?_)
    · exact calls_executeSql fun _ => leavesOthers_deleteComTrk ⟨x, hX, hId⟩
    · obtain ⟨y, hY, hPistNames⟩ := exists_mem_of_forall₂ hNames.elements hPist
      have hPistId := hPistNames.1.wholeIn_iff.mp (hNozzles y hY)
      exact calls_executeSql fun _ => leavesOthers_deletePist ⟨x, hX, hId, y, hY, hPistId⟩
  exact .bind (.forM_mem hTovar) fun _ => .bind (.forM_mem hTank) fun _ => .forM_mem hTrk

end Rows

/-! ## The handlers -/

section Handlers

variable {pl : Platform} {json : Json} {places L : Language Entry} {handler m : Prog Unit}

/-- One run has added one word. -/
theorem Adds.meet {L M : Language Entry} {w next : World} (hFirst : Adds World.log L w next)
    (hSecond : Adds World.log M w next) : Meet L M := by
  obtain ⟨lines, hIn, hLog⟩ := hFirst
  obtain ⟨other, hOther, hSame⟩ := hSecond
  obtain rfl := List.append_cancel_left (hLog.symm.trans hSame)
  exact ⟨lines, hIn, hOther⟩

/-- A handler keeps the ids if its loops do. -/
theorem keepsIds_of_loops (hRun : ∀ w, handler w = (m >>= fun _ => replyStatus "success") w.jsonReply)
    (hLines : Lines L 0 m) (hLe : L ≤ places)
    (hCalls : Calls pl (LeavesOthers pl.mysql json) False m) : KeepsIds json places handler := by
  intro w next hOk _
  rw [hRun] at hOk
  cases hLoops : m w.jsonReply with
  | error e after =>
      rw [bind_of_error hLoops] at hOk
      cases hOk
  | ok value after =>
      rw [bind_of_ok hLoops, replyStatus_run] at hOk
      cases hOk
      have hAdds : Adds World.log L w.jsonReply after := hLines.done _ value after hLoops
      have hOthers : ∀ place, KeepsOthers json (w.jsonReply.mysql place) (after.mysql place) :=
        keepsOthers_of_calls hCalls hLoops
      exact ⟨hAdds.mono hLe, hOthers⟩

/-- And its loops do if it keeps them. -/
theorem KeepsIds.loops (hKeeps : KeepsIds json places handler)
    (hRun : ∀ w, handler w = (m >>= fun _ => replyStatus "success") w.jsonReply) {w next : World}
    (hLoops : m w.jsonReply = .ok ⟨⟩ next) :
    Adds World.log places w.jsonReply next ∧
      ∀ place, KeepsOthers json (w.mysql place) (next.mysql place) := by
  have hOk : handler w = .ok ⟨⟩ (next.answered "success") := by
    rw [hRun, bind_of_ok hLoops, replyStatus_run]
  have hBoth := hKeeps w (next.answered "success") hOk rfl
  exact hBoth

/-- What `api_settings_set` needs to keep the ids of a body that it stores. -/
theorem keepsIds_set_iff {req : Request} {form : SettingsForm} (hParse : pl.parse req.body = some json)
    (hPosted : Posted json form) :
    KeepsIds json (setPlaces json) (Admin.apiSettingsSet pl req) ↔
      SetWhole json ∧ InsideQuotes pl.mysql json := by
  have hRun : ∀ w, Admin.apiSettingsSet pl req w =
      (form.store pl >>= fun _ => replyStatus "success") w.jsonReply := fun w =>
    apiSettingsSet_of_form hParse (setForm_iff.mpr hPosted)
  constructor
  · intro hKeeps
    constructor
    · -- the statements over a server that executes all of them
      have hServes : Serves ⟨{}, true⟩ (stationWorld {}).jsonReply :=
        ⟨rfl, rfl, fun _ hMem => by cases hMem⟩
      obtain ⟨next, hLoops, -, hAdds⟩ := form.served_store pl ⟨{}, true⟩ _ hServes
      exact setWhole_of_meet hPosted (Adds.meet (hKeeps.loops hRun hLoops).1 hAdds)
    · -- the statement of one product, executed alone
      intro x hX
      by_cases hPlain : (jsonToTovar x).plain = true
      · exact Or.inl hPlain
      · refine Or.inr fun t rows hOther => ?_
        have hMem : jsonToTovar x ∈ form.tovars := by
          rw [(read_of_setForm (setForm_iff.mpr hPosted)).1.1]
          exact List.mem_map_of_mem hX
        have hStored : storeTovar pl.mysql (jsonToTovar x) t = some { t with tovar := rows } := by
          rw [storeTovar_of_not_plain pl.mysql t hPlain, hOther]
          rfl
        obtain ⟨results, hUnder⟩ := form.store_one hMem hStored
        obtain ⟨next, hLoops, -, -, hTables⟩ := hUnder
          ({ stationWorld t with env := { now := .epoch, sql := results } } : World).jsonReply [] rfl
          (List.append_nil _).symm rfl
        have hOthers := (hKeeps.loops hRun hLoops).2 (address {})
        have hNext : next.mysql (address {}) = { t with tovar := rows } := hTables
        rw [hNext] at hOthers
        exact hOthers.tovar
  · rintro ⟨hWhole, hQuotes⟩
    exact keepsIds_of_loops hRun (form.lines_store pl) (storeLines_le hPosted hWhole)
      (calls_store hPosted hWhole hQuotes)

/-- What `api_settings_delete` needs. -/
theorem keepsIds_delete_iff {req : Request} {form : SettingsForm}
    (hParse : pl.parse req.body = some json) (hNamed : Named json form) :
    KeepsIds json (erasePlaces json) (Admin.apiSettingsDelete pl req) ↔ EraseWhole json := by
  have hRun : ∀ w, Admin.apiSettingsDelete pl req w =
      (form.erase pl >>= fun _ => replyStatus "success") w.jsonReply := fun w =>
    apiSettingsDelete_of_form hParse (eraseForm_iff.mpr hNamed)
  constructor
  · intro hKeeps
    obtain ⟨next, hLoops⟩ := (form.sends_erase pl ⟨{}, true⟩).returns
      (w := (stationWorld {}).jsonReply) rfl
    have hAdds := (form.lines_erase pl).done _ _ _ hLoops
    exact eraseWhole_of_meet hNamed (Adds.meet (hKeeps.loops hRun hLoops).1 hAdds)
  · intro hWhole
    exact keepsIds_of_loops hRun (form.lines_erase pl) (eraseLines_le hNamed hWhole)
      (calls_erase hNamed hWhole)

/-- A handler that never answers "success". -/
theorem keepsIds_of_rejected (hRejected : ∀ w, Rejected w (handler w)) :
    KeepsIds json places handler := by
  intro w next hOk hSuccess
  obtain ⟨other, hEnds, -⟩ := (hRejected w).ends
  rcases hEnds with hError | ⟨hSame, hAnswer⟩
  · rw [hError] at hOk
    cases hOk
  · rw [hSame] at hOk
    cases hOk
    rw [hSuccess] at hAnswer
    exact absurd hAnswer (by decide)

/-- For a body that is answered with "success", every id in the statements of both handlers is the
one that is written at its place, and no row with another id is changed, exactly if all ids are
written as numbers of the type `int`; `api_settings_set` also needs names that do not lead MySQL
to the rows of other products. -/
theorem issued_ids_iff (pl : Platform) (req : Request) (json : Json)
    (hParse : pl.parse req.body = some json) :
    (KeepsIds json (setPlaces json) (Admin.apiSettingsSet pl req) ↔
      ((∃ form, Posted json form) → SetWhole json ∧ InsideQuotes pl.mysql json)) ∧
    (KeepsIds json (erasePlaces json) (Admin.apiSettingsDelete pl req) ↔
      ((∃ form, Named json form) → EraseWhole json)) := by
  constructor
  · by_cases hPosted : ∃ form, Posted json form
    · obtain ⟨form, hForm⟩ := hPosted
      rw [keepsIds_set_iff hParse hForm]
      exact ⟨fun hCond _ => hCond, fun hCond => hCond ⟨form, hForm⟩⟩
    · refine iff_of_true (keepsIds_of_rejected fun w => ?_) fun hSome => absurd hSome hPosted
      refine apiSettingsSet_of_form_none hParse (Option.eq_none_iff_forall_ne_some.mpr ?_)
      exact fun form hForm => hPosted ⟨form, setForm_iff.mp hForm⟩
  · by_cases hNamed : ∃ form, Named json form
    · obtain ⟨form, hForm⟩ := hNamed
      rw [keepsIds_delete_iff hParse hForm]
      exact ⟨fun hCond _ => hCond, fun hCond => hCond ⟨form, hForm⟩⟩
    · refine iff_of_true (keepsIds_of_rejected fun w => ?_) fun hSome => absurd hSome hNamed
      refine apiSettingsDelete_of_form_none hParse (Option.eq_none_iff_forall_ne_some.mpr ?_)
      exact fun form hForm => hNamed ⟨form, eraseForm_iff.mp hForm⟩

end Handlers

/-! ## Two bodies -/

/-- The ids of `wholePost` are kept by both handlers. -/
theorem whole_ids_issued :
    KeepsIds wholePost (setPlaces wholePost)
      (Admin.apiSettingsSet (settingsPlatform wholePost) (setRequest wholePost)) ∧
    KeepsIds wholePost (erasePlaces wholePost)
      (Admin.apiSettingsDelete (settingsPlatform wholePost) (setRequest wholePost)) := by
  have hKept := settingsKept_wholePost
  obtain ⟨hSet, hDelete⟩ := issued_ids_iff (settingsPlatform wholePost) (setRequest wholePost)
    wholePost (parse_setRequest wholePost)
  constructor
  · refine hSet.mpr fun _ => ⟨⟨?_, ?_, ?_⟩, ?_⟩
    · exact fun x hMem => (hKept.tovars x hMem).1.id
    · exact fun x hMem => ⟨(hKept.tanks x hMem).1.id, (hKept.tanks x hMem).1.tovar⟩
    · refine fun x hMem => ⟨(hKept.trks x hMem).1.id, fun pist hPist => ?_⟩
      have hWhole := (hKept.trks x hMem).1.pists pist hPist
      exact ⟨hWhole.tank, Or.inl hWhole.id⟩
    · exact fun x hMem => Or.inl (postable_wholePost.plain x hMem)
  · refine hDelete.mpr fun _ => ⟨?_, ?_, ?_⟩
    · exact fun x hMem => (hKept.tovars x hMem).1.id
    · exact fun x hMem => (hKept.tanks x hMem).1.id
    · exact fun x hMem => ⟨(hKept.trks x hMem).1.id, fun pist hPist =>
        ((hKept.trks x hMem).1.pists pist hPist).id⟩

/-- The deletion of a product whose id is by 2^32 larger than that of another one. -/
def wideProduct : Json :=
  .object [(ascii "tovars", .array [.object [(ascii "id_tovar", .int 4294967297)]])]

def widePlatform : Platform := .exchanging .plain [wideProduct]

def wideRequest : Request :=
  { url := ascii "/api/settings/delete", body := wideProduct.plainText }

/-- It deletes the other product. -/
theorem other_product_deleted :
    (∃ next, Admin.apiSettingsDelete widePlatform wideRequest (productWorld []) = .ok ⟨⟩ next ∧
      next.response.body = statusText "success" ∧
      next.log = [.update (.deleteTovar 1) true] ∧ (next.mysql (address {})).tovar = []) ∧
    ¬ KeepsIds wideProduct (erasePlaces wideProduct)
      (Admin.apiSettingsDelete widePlatform wideRequest) := by
  have hParse : widePlatform.parse wideRequest.body = some wideProduct :=
    Platform.plain.parse_exchanging wideProduct
  have hForm : eraseForm wideProduct = some ⟨[{ idTovar := 1 }], [], []⟩ := by decide +kernel
  constructor
  · rw [apiSettingsDelete_of_form hParse hForm]
    exact ⟨_, rfl, rfl, rfl, by decide +kernel⟩
  · rw [keepsIds_delete_iff hParse (eraseForm_iff.mp hForm)]
    intro hWhole
    -- the id that is read is 1, and the one that is written is not
    have hRead : fieldInt (.object [(ascii "id_tovar", .int 4294967297)]) "id_tovar" = some 1 := by
      decide +kernel
    have hNumber := (wholeIn_iff hRead).mp (hWhole.tovars _ List.mem_cons_self)
    exact absurd hNumber (by decide +kernel)

end Server
end AzsServer
