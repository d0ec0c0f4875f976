import AzsServer.Library.Updates
import AzsServer.Server.SettingsAnswers

/-!
# The rows behind `api_settings_set`

What the loops of `api_settings_set` make of the rows: a product, a tank or a pump gets the
values that are posted under its id, and the nozzles of a pump get their tanks and the new
nozzles ids behind the largest one.
-/

namespace AzsServer
namespace Server

open Core Library

/-! ## Products, tanks and pumps -/

theorem keyed_storeTovarRow :
    Keyed storeTovarRow Tovar.idTovar Mysql.TovarRow.idTovar where
  other _ _ hNe := if_neg hNe
  keeps tovar row := by
    unfold storeTovarRow
    split_ifs
    · rfl
    · rfl

theorem keyed_storeTankRow : Keyed storeTankRow Tank.idTank Mysql.TankRow.idTank where
  other _ _ hNe := if_neg hNe
  keeps tank row := by
    unfold storeTankRow
    split_ifs
    · rfl
    · rfl

theorem keyed_storeComTrkRow : Keyed storeComTrkRow Trk.idTrk Mysql.ComTrkRow.idTrk where
  other _ _ hNe := if_neg hNe
  keeps trk row := by
    unfold storeComTrkRow
    split_ifs
    · rfl
    · rfl

/-- The station of a pump is not changed. -/
theorem idAzs_updated (trks : List Trk) (row : Mysql.ComTrkRow) :
    (updated storeComTrkRow trks row).idAzs = row.idAzs := by
  induction trks generalizing row with
  | nil => rfl
  | cons trk trks ih =>
      refine (ih (storeComTrkRow trk row)).trans ?_
      unfold storeComTrkRow
      split_ifs
      · rfl
      · rfl

/-- The nozzles of a pump in the table `trk`. -/
def storeNozzles (trk : Trk) (rows : List Mysql.TrkRow) : List Mysql.TrkRow :=
  storePists trk.idTrk (maxIdPist trk.idTrk rows) 0 trk.pists rows

/-- The tables behind `api_settings_set`. -/
def SettingsForm.rows (form : SettingsForm) (t : Mysql.Tables) : Mysql.Tables :=
  { t with
    tovar := t.tovar.map (updated storeTovarRow form.tovars)
    tank := t.tank.map (updated storeTankRow form.tanks)
    comTrk := t.comTrk.map (updated storeComTrkRow form.trks)
    trk := updated storeNozzles form.trks t.trk }

section Tables

variable {engine : Mysql.Engine} {t : Mysql.Tables} {form : SettingsForm}

theorem foldlM_storeTovar {tovars : List Tovar} (hPlain : ∀ tovar ∈ tovars, tovar.plain = true) :
    tovars.foldlM (fun t tovar => storeTovar engine tovar t) t =
      some { t with tovar := t.tovar.map (updated storeTovarRow tovars) } := by
  rw [← foldl_map_eq_map_updated]
  induction tovars generalizing t with
  | nil => rfl
  | cons tovar tovars ih =>
      rw [List.foldlM_cons, storeTovar_of_plain engine t (hPlain tovar List.mem_cons_self)]
      exact ih fun other hMem => hPlain other (List.mem_cons_of_mem _ hMem)

theorem foldl_storeTank (tanks : List Tank) :
    tanks.foldl (fun t tank => storeTank tank t) t =
      { t with tank := t.tank.map (updated storeTankRow tanks) } := by
  rw [← foldl_map_eq_map_updated]
  induction tanks generalizing t with
  | nil => rfl
  | cons tank tanks ih =>
      rw [List.foldl_cons, ih]
      rfl

theorem foldl_storeTrk (trks : List Trk) :
    trks.foldl (fun t trk => storeTrk trk t) t =
      { t with
        comTrk := t.comTrk.map (updated storeComTrkRow trks)
        trk := updated storeNozzles trks t.trk } := by
  rw [← foldl_map_eq_map_updated]
  induction trks generalizing t with
  | nil => rfl
  | cons trk trks ih =>
      rw [List.foldl_cons, ih]
      rfl

/-- Names without quotes and backslashes leave no statement to MySQL's parser. -/
theorem stored_of_plain (hPlain : ∀ tovar ∈ form.tovars, tovar.plain = true) :
    form.stored engine t = some (form.rows t) := by
  rw [SettingsForm.stored, SettingsForm.storeTovars, foldlM_storeTovar hPlain, Option.map_some,
    SettingsForm.storeRest, foldl_storeTank, foldl_storeTrk]
  rfl

end Tables

/-! ## Nozzles -/

/-- The ids of the new nozzles of a pump. -/
def freshIds (maxId : Int) : Int → List Pist → List Int
  | _, [] => []
  | n, pist :: rest =>
      if pist.idPist = 0 then (maxId + (n + 1)) :: freshIds maxId (n + 1) rest
      else freshIds maxId n rest

/-- The ids under which the nozzles of a pump are stored. -/
def givenIds (maxId : Int) : Int → List Pist → List Int
  | _, [] => []
  | n, pist :: rest =>
      if pist.idPist = 0 then (maxId + (n + 1)) :: givenIds maxId (n + 1) rest
      else pist.idPist :: givenIds maxId n rest

section Nozzles

variable {idTrk maxId : Int} {pists : List Pist} {rows : List Mysql.TrkRow} {trk : Trk}

theorem storePistRow_ids (idTrk : Int) (pist : Pist) (row : Mysql.TrkRow) :
    (storePistRow idTrk pist row).idTrk = row.idTrk ∧
      (storePistRow idTrk pist row).idPist = row.idPist := by
  unfold storePistRow
  split_ifs
  · exact ⟨rfl, rfl⟩
  · exact ⟨rfl, rfl⟩

/-- The rows of one pump behind the `UPDATE` of a nozzle. -/
theorem filter_map_storePistRow (k idTrk : Int) (pist : Pist) (rows : List Mysql.TrkRow) :
    (rows.map (storePistRow idTrk pist)).filter (·.idTrk = k) =
      (rows.filter (·.idTrk = k)).map (storePistRow idTrk pist) := by
  rw [List.filter_map]
  refine congrArg (List.map (storePistRow idTrk pist)) (List.filter_congr fun row _ => ?_)
  show decide ((storePistRow idTrk pist row).idTrk = k) = decide (row.idTrk = k)
  rw [(storePistRow_ids idTrk pist row).1]

/-- The nozzles of another pump stay as they are. -/
theorem filter_storePists_of_ne {k : Int} (hNe : idTrk ≠ k) (n : Int) :
    (storePists idTrk maxId n pists rows).filter (·.idTrk = k) = rows.filter (·.idTrk = k) := by
  induction pists generalizing n rows with
  | nil => rfl
  | cons pist pists ih =>
      unfold storePists
      split_ifs with hZero
      · rw [ih, List.filter_append, List.filter_cons_of_neg (by simpa using hNe), List.filter_nil,
          List.append_nil]
      · rw [ih, filter_map_storePistRow]
        conv_rhs => rw [← List.map_id (rows.filter _)]
        refine List.map_congr_left fun row hMem => if_neg fun hIds => hNe ?_
        rw [← hIds.1]
        exact of_decide_eq_true (List.mem_filter.mp hMem).2

/-- Those of the pump itself depend on its own rows only. -/
theorem filter_storePists_self (n : Int) :
    (storePists idTrk maxId n pists rows).filter (·.idTrk = idTrk) =
      storePists idTrk maxId n pists (rows.filter (·.idTrk = idTrk)) := by
  induction pists generalizing n rows with
  | nil => rfl
  | cons pist pists ih =>
      unfold storePists
      split_ifs with hZero
      · rw [ih, List.filter_append, List.filter_cons_of_pos (by simp), List.filter_nil]
      · rw [ih, filter_map_storePistRow]

theorem maxIdPist_filter (idTrk : Int) (rows : List Mysql.TrkRow) :
    maxIdPist idTrk (rows.filter (·.idTrk = idTrk)) = maxIdPist idTrk rows := by
  unfold maxIdPist
  rw [List.filter_filter]
  simp only [Bool.and_self]

/-- Behind all pumps the rows of one are what its own update makes of them. -/
theorem filter_updated_storeNozzles {trks : List Trk} (hNodup : (trks.map Trk.idTrk).Nodup)
    (hMem : trk ∈ trks) :
    (updated storeNozzles trks rows).filter (·.idTrk = trk.idTrk) =
      storeNozzles trk (rows.filter (·.idTrk = trk.idTrk)) := by
  have hOther : ∀ (others : List Trk) (rows : List Mysql.TrkRow),
      (∀ other ∈ others, other.idTrk ≠ trk.idTrk) →
        (updated storeNozzles others rows).filter (·.idTrk = trk.idTrk) =
          rows.filter (·.idTrk = trk.idTrk) := by
    intro others
    induction others with
    | nil => exact fun _ _ => rfl
    | cons other others ih =>
        intro rows hNone
        refine (ih _ fun later hLater => hNone later (List.mem_cons_of_mem _ hLater)).trans ?_
        exact filter_storePists_of_ne (hNone other List.mem_cons_self) 0
  induction trks generalizing rows with
  | nil => cases hMem
  | cons first trks ih =>
      obtain ⟨hFirst, hRest⟩ := List.nodup_cons.mp hNodup
      show (updated storeNozzles trks (storeNozzles first rows)).filter _ = _
      rcases List.mem_cons.mp hMem with rfl | hLater
      · rw [hOther trks _ fun other hIn hSame => hFirst (hSame ▸ List.mem_map_of_mem hIn)]
        unfold storeNozzles
        rw [filter_storePists_self, maxIdPist_filter]
      · have hNe : first.idTrk ≠ trk.idTrk := fun hSame =>
          hFirst (hSame ▸ List.mem_map_of_mem hLater)
        rw [ih hRest hLater]
        exact congrArg (storeNozzles trk) (filter_storePists_of_ne hNe 0)

/-- The ids of the rows are the ones before and the fresh ones. -/
theorem map_idPist_storePists (n : Int) :
    (storePists idTrk maxId n pists rows).map (·.idPist) =
      rows.map (·.idPist) ++ freshIds maxId n pists := by
  induction pists generalizing n rows with
  | nil => exact (List.append_nil _).symm
  | cons pist pists ih =>
      unfold storePists freshIds
      split_ifs with hZero
      · rw [ih, List.map_append, List.append_assoc]
        rfl
      · rw [ih, List.map_map]
        exact congrArg (· ++ _)
          (List.map_congr_left fun row _ => (storePistRow_ids idTrk pist row).2)

theorem length_freshIds (maxId n : Int) (pists : List Pist) :
    (freshIds maxId n pists).length = (pists.filter (·.idPist = 0)).length := by
  induction pists generalizing n with
  | nil => rfl
  | cons pist pists ih =>
      unfold freshIds
      split_ifs with hZero
      · rw [List.filter_cons_of_pos (by simpa using hZero), List.length_cons, List.length_cons, ih]
      · rw [List.filter_cons_of_neg (by simpa using hZero), ih]

/-- No nozzle of the pump has a larger id. -/
theorem le_maxIdPist {row : Mysql.TrkRow} (hMem : row ∈ rows) (hId : row.idTrk = idTrk) :
    row.idPist ≤ maxIdPist idTrk rows := by
  have hIn : row.idPist ∈ (rows.filter (·.idTrk = idTrk)).map (·.idPist) :=
    List.mem_map_of_mem (List.mem_filter.mpr ⟨hMem, decide_eq_true hId⟩)
  unfold maxIdPist
  cases hMax : ((rows.filter (·.idTrk = idTrk)).map (·.idPist)).max? with
  | none =>
      rw [List.max?_eq_none_iff.mp hMax] at hIn
      cases hIn
  | some most => exact (List.max?_le_iff hMax).mp le_rfl _ hIn

/-- A row that no further nozzle addresses. -/
theorem mem_storePists_of_mem {row : Mysql.TrkRow} (hMem : row ∈ rows)
    (hOther : ∀ pist ∈ pists, pist.idPist ≠ 0 → row.idPist ≠ pist.idPist) (n : Int) :
    row ∈ storePists idTrk maxId n pists rows := by
  induction pists generalizing n rows with
  | nil => exact hMem
  | cons pist pists ih =>
      have hRest : ∀ other ∈ pists, other.idPist ≠ 0 → row.idPist ≠ other.idPist :=
        fun other hIn => hOther other (List.mem_cons_of_mem _ hIn)
      unfold storePists
      split_ifs with hZero
      · exact ih (List.mem_append_left _ hMem) hRest _
      · have hSame : storePistRow idTrk pist row = row :=
          if_neg fun hIds => hOther pist List.mem_cons_self hZero hIds.2
        exact ih (List.mem_map.mpr ⟨row, hMem, hSame⟩) hRest _

/-- The ids of the nozzles that are not new. -/
def oldIds (pists : List Pist) : List Int := (pists.map (·.idPist)).filter (· ≠ 0)

theorem mem_oldIds {pist : Pist} (hMem : pist ∈ pists) (hOld : pist.idPist ≠ 0) :
    pist.idPist ∈ oldIds pists :=
  List.mem_filter.mpr ⟨List.mem_map_of_mem hMem, decide_eq_true hOld⟩

theorem oldIds_cons_of_zero {pist : Pist} (hZero : pist.idPist = 0) :
    oldIds (pist :: pists) = oldIds pists := by
  unfold oldIds
  rw [List.map_cons, List.filter_cons_of_neg (by simpa using hZero)]

theorem oldIds_cons_of_ne {pist : Pist} (hOld : pist.idPist ≠ 0) :
    oldIds (pist :: pists) = pist.idPist :: oldIds pists := by
  unfold oldIds
  rw [List.map_cons, List.filter_cons_of_pos (by simpa using hOld)]

/-- A given id is the one of an old nozzle or larger than all of them. -/
theorem mem_givenIds {id n : Int} (hMem : id ∈ givenIds maxId n pists) :
    id ∈ oldIds pists ∨ maxId + n < id := by
  induction pists generalizing n with
  | nil => cases hMem
  | cons pist pists ih =>
      unfold givenIds at hMem
      split_ifs at hMem with hZero
      · rw [oldIds_cons_of_zero hZero]
        rcases List.mem_cons.mp hMem with rfl | hRest
        · exact Or.inr (by omega)
        · exact (ih hRest).imp_right fun hLess => by omega
      · rw [oldIds_cons_of_ne hZero]
        rcases List.mem_cons.mp hMem with rfl | hRest
        · exact Or.inl List.mem_cons_self
        · exact (ih hRest).imp_left (List.mem_cons_of_mem _)

theorem nodup_givenIds {n : Int} (hNodup : (oldIds pists).Nodup)
    (hOld : ∀ id ∈ oldIds pists, id ≤ maxId + n) : (givenIds maxId n pists).Nodup := by
  induction pists generalizing n with
  | nil => exact List.nodup_nil
  | cons pist pists ih =>
      unfold givenIds
      split_ifs with hZero
      · rw [oldIds_cons_of_zero hZero] at hNodup hOld
        refine List.nodup_cons.mpr ⟨fun hMem => ?_, ih hNodup fun id hIn => ?_⟩
        · rcases mem_givenIds hMem with hIn | hLess
          · have hAtMost := hOld _ hIn
            omega
          · omega
        · have hAtMost := hOld id hIn
          omega
      · rw [oldIds_cons_of_ne hZero] at hNodup hOld
        obtain ⟨hFirst, hRest⟩ := List.nodup_cons.mp hNodup
        refine List.nodup_cons.mpr ⟨fun hMem => ?_, ih hRest fun id hIn =>
          hOld id (List.mem_cons_of_mem _ hIn)⟩
        rcases mem_givenIds hMem with hIn | hLess
        · exact hFirst hIn
        · have hAtMost := hOld _ List.mem_cons_self
          omega

/-- A nozzle is stored under an id: its own one, or a fresh one if it is new. -/
def StoredAs (idTrk least : Int) (rows : List Mysql.TrkRow) (pist : Pist) (id : Int) : Prop :=
  ⟨idTrk, id, pist.idTank⟩ ∈ rows ∧ (pist.idPist = id ∨ pist.idPist = 0 ∧ least < id)

/-- The nozzles of a pump, of which the old ones have their rows, are stored under their given
ids. -/
theorem storedAs_givenIds {n : Int} (hNodup : (oldIds pists).Nodup)
    (hOld : ∀ id ∈ oldIds pists, id ≤ maxId + n)
    (hRows : ∀ id ∈ oldIds pists, ∃ row ∈ rows, row.idTrk = idTrk ∧ row.idPist = id) :
    List.Forall₂ (StoredAs idTrk (maxId + n) (storePists idTrk maxId n pists rows)) pists
      (givenIds maxId n pists) := by
  induction pists generalizing n rows with
  | nil => exact .nil
  | cons pist pists ih =>
      unfold givenIds storePists
      split_ifs with hZero
      · rw [oldIds_cons_of_zero hZero] at hNodup hOld hRows
        refine .cons ⟨?_, Or.inr ⟨hZero, by omega⟩⟩ ?_
        · refine mem_storePists_of_mem (List.mem_append_right _ List.mem_cons_self) ?_ _
          intro other hIn hNe hSame
          have hAtMost := hOld _ (mem_oldIds hIn hNe)
          have hSame : maxId + (n + 1) = other.idPist := hSame
          omega
        · have hRest := @ih (rows ++ [⟨idTrk, maxId + (n + 1), pist.idTank⟩]) (n + 1) hNodup
            (fun id hIn => by have hAtMost := hOld id hIn; omega) fun id hIn => by
              obtain ⟨row, hRow, hIds⟩ := hRows id hIn
              exact ⟨row, List.mem_append_left _ hRow, hIds⟩
          refine hRest.imp fun other id hStored => ⟨hStored.1, ?_⟩
          rcases hStored.2 with hSame | ⟨hNew, hLess⟩
          · exact Or.inl hSame
          · exact Or.inr ⟨hNew, by omega⟩
      · rw [oldIds_cons_of_ne hZero] at hNodup hOld hRows
        obtain ⟨hFirst, hRest⟩ := List.nodup_cons.mp hNodup
        refine .cons ⟨?_, Or.inl rfl⟩ ?_
        · obtain ⟨row, hRow, hTrk, hPist⟩ := hRows _ List.mem_cons_self
          have hStored : storePistRow idTrk pist row = ⟨idTrk, pist.idPist, pist.idTank⟩ := by
            unfold storePistRow
            rw [if_pos ⟨hTrk, hPist⟩, ← hTrk, ← hPist]
          refine mem_storePists_of_mem (hStored ▸ List.mem_map_of_mem hRow) ?_ _
          intro other hIn hNe hSame
          have hSame : pist.idPist = other.idPist := hSame
          exact hFirst (hSame ▸ mem_oldIds hIn hNe)
        · refine ih hRest (fun id hIn => hOld id (List.mem_cons_of_mem _ hIn)) fun id hIn => ?_
          obtain ⟨row, hRow, hTrk, hPist⟩ := hRows id (List.mem_cons_of_mem _ hIn)
          refine ⟨_, List.mem_map_of_mem hRow, ?_, ?_⟩
          · rw [(storePistRow_ids idTrk pist row).1]
            exact hTrk
          · rw [(storePistRow_ids idTrk pist row).2]
            exact hPist

/-- The new nozzles use up the fresh ids: if all nozzles are found under different ids, the
new ones under ids that were not there before, then every old one was there before. -/
theorem old_of_found {ids before : List Int} {n : Int} (hNodup : ids.Nodup)
    (hZero : (0 : Int) ∉ before) (hSub : ids ⊆ before ++ freshIds maxId n pists)
    (hFound : List.Forall₂
      (fun pist id => pist.idPist = id ∨ pist.idPist = 0 ∧ id ∉ before) pists ids) :
    ∀ pist ∈ pists, pist.idPist ≠ 0 → pist.idPist ∈ before := by
  have hCount : (ids.filter (· ∉ before)).length =
      (pists.filter (·.idPist = 0)).length +
        (pists.filter fun pist => pist.idPist ≠ 0 ∧ pist.idPist ∉ before).length := by
    clear hSub hNodup
    induction hFound with
    | nil => rfl
    | @cons pist id pists ids hHead _ ih =>
        by_cases hNew : pist.idPist = 0
        · have hOut : id ∉ before := by
            rcases hHead with hSame | hFresh
            · rw [← hSame, hNew]
              exact hZero
            · exact hFresh.2
          rw [List.filter_cons_of_pos (by simpa using hOut),
            List.filter_cons_of_pos (by simpa using hNew),
            List.filter_cons_of_neg (by simp [hNew]), List.length_cons, List.length_cons, ih]
          omega
        · have hSame : pist.idPist = id := hHead.resolve_right fun hFresh => hNew hFresh.1
          subst hSame
          by_cases hIn : pist.idPist ∈ before
          · simp only [List.filter_cons, hNew, hIn, ih, decide_false, not_true_eq_false, and_false,
              Bool.false_eq_true, if_false]
          · simp only [List.filter_cons, hNew, hIn, ih, decide_false, decide_true, not_false_iff,
              ne_eq, and_self, if_true, Bool.false_eq_true, if_false, List.length_cons]
            omega
  have hAtMost := length_filter_notMem_le hNodup hSub
  rw [length_freshIds, hCount] at hAtMost
  have hNone : (pists.filter fun pist => pist.idPist ≠ 0 ∧ pist.idPist ∉ before) = [] :=
    List.length_eq_zero_iff.mp (by omega)
  intro pist hMem hOld
  by_contra hOut
  have hIn : pist ∈ pists.filter fun pist => pist.idPist ≠ 0 ∧ pist.idPist ∉ before :=
    List.mem_filter.mpr ⟨hMem, decide_eq_true ⟨hOld, hOut⟩⟩
  rw [hNone] at hIn
  cases hIn

end Nozzles

end Server
end AzsServer
