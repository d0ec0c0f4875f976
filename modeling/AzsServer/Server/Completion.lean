import AzsServer.Server.GetThenSet
import AzsServer.Server.NozzleLinks
import AzsServer.Server.PostedSettings
import AzsServer.Server.ShiftOrder

/-!
# Requests that are answered

Behind the cookie check `AuthVerefy::before_handle` runs a page of the administrator or of
the user.  Nothing catches what a page throws, and Crow sends no answer for it.  Here is
for every page when it ends the reply.
-/

namespace AzsServer
namespace Server

open Core Library Nlohmann
open Json (Utf8 Dumpable Nests)

/-- The program returns, and the reply is ended. -/
def Completed (result : EStateM.Result Throw World Unit) : Prop :=
  ∃ next, result = .ok ⟨⟩ next ∧ next.response.completed = true

/-- What the pages rely on: `dump` throws exactly on strings that are no UTF-8, and Crow
reads what `dump` has written, unless it is nested deeply. -/
structure WritesJson (pl : Platform) : Prop where
  dumps : ∀ value, pl.dump value ≠ none ↔ value.Dumpable
  reloads : ∀ value text, Nests 100 value → pl.dump value = some text → Crow.load text ≠ none

/-! ## Ends of programs -/

section Ends

variable {pl : Platform} {w next : World} {α : Type} {m : Prog α} {rest : α → Prog Unit} {a : α}

theorem completed_bind_of_ok (hRun : m w = .ok a next) :
    Completed ((m >>= rest) w) ↔ Completed (rest a next) := by
  rw [bind_of_ok hRun]

theorem not_completed_of_error {e : Throw} (hRun : m w = .error e next) :
    ¬ Completed ((m >>= rest) w) := by
  rw [bind_of_error hRun]
  rintro ⟨other, hOk, -⟩
  cases hOk

theorem completed_orThrow_iff {read : Option α} :
    Completed ((orThrow read >>= rest) w) ↔ ∃ a, read = some a ∧ Completed (rest a w) := by
  cases read with
  | none =>
      refine iff_of_false (not_completed_of_error (orThrow_none_run w)) ?_
      rintro ⟨a, hSome, -⟩
      cases hSome
  | some a =>
      rw [completed_bind_of_ok (orThrow_some_run a w)]
      constructor
      · exact fun hEnds => ⟨a, rfl, hEnds⟩
      · rintro ⟨other, hSame, hEnds⟩
        obtain rfl := Option.some.inj hSame
        exact hEnds

theorem completed_replyStatus (status : String) (w : World) : Completed (replyStatus status w) :=
  ⟨_, replyStatus_run status w, rfl⟩

theorem completed_sendAway (w : World) : Completed (sendAway w) := ⟨_, rfl, rfl⟩

theorem completed_writePage (pl : Platform) (page : String) (ctx : Crow.Json) (w : World) :
    Completed (writePage pl page ctx w) := ⟨_, rfl, rfl⟩

theorem completed_replyJson_iff (hJson : WritesJson pl) {ctx : Json} :
    Completed (replyJson pl ctx w) ↔ ctx.Dumpable := by
  rw [← hJson.dumps, replyJson, completed_orThrow_iff, Option.ne_none_iff_exists']
  constructor
  · rintro ⟨text, hText, -⟩
    exact ⟨text, hText⟩
  · rintro ⟨text, hText⟩
    exact ⟨text, hText, _, rfl, rfl⟩

/-- A page is written if its context can be. -/
theorem completed_page_iff (hJson : WritesJson pl) {ctx : Json} (hNests : Nests 100 ctx)
    (page : String) :
    Completed ((reloadContext pl ctx >>= fun ctx => writePage pl page ctx) w) ↔ ctx.Dumpable := by
  rw [← hJson.dumps]
  have hReload : (reloadContext pl ctx >>= fun ctx => writePage pl page ctx) w =
      (orThrow (pl.dump ctx) >>= fun text => orThrow (Crow.load text) >>= fun ctx =>
        writePage pl page ctx) w := by
    rw [reloadContext, bind_assoc]
  rw [hReload, completed_orThrow_iff, Option.ne_none_iff_exists']
  constructor
  · rintro ⟨text, hText, -⟩
    exact ⟨text, hText⟩
  · rintro ⟨text, hText⟩
    obtain ⟨value, hValue⟩ := Option.ne_none_iff_exists'.mp (hJson.reloads ctx text hNests hText)
    exact ⟨text, hText, completed_orThrow_iff.mpr ⟨value, hValue, completed_writePage ..⟩⟩

end Ends

/-! ## The products that are shown -/

/-- The product behind a nozzle. -/
def Pist.shown (pist : Pist) : Option Tovar := pist.tank >>= (·.tovar)

/-- The product behind a joined row. -/
def rowTovar (t : Mysql.Tables) (row : PistRow) : Option Tovar :=
  (loadedTanks t).find? (·.idTank = row.idTank) >>= (·.tovar)

/-- The nozzles have their tanks, and the tanks their products. -/
structure TanksLinked (t : Mysql.Tables) : Prop where
  tanks : Refers Mysql.TrkRow.idTank t.trk Mysql.TankRow.idTank t.tank
  tovars : Refers Mysql.TankRow.idTovar t.tank Mysql.TovarRow.idTovar t.tovar

section Shown

variable {t : Mysql.Tables} {station : Int} {trks : List Trk}

theorem Consistent.linked (hConsistent : Consistent t) : TanksLinked t :=
  ⟨hConsistent.tanks, hConsistent.tovars⟩

/-- Nozzles whose tanks are all found. -/
theorem nozzlesFrom_of_found {tanks : List Tank} {rows : List PistRow} (old : Option Tank)
    (hFound : ∀ row ∈ rows, (tanks.find? (·.idTank = row.idTank)).isSome = true) :
    nozzlesFrom tanks old rows =
      rows.map fun row => rowPist (tanks.find? (·.idTank = row.idTank)) row := by
  induction rows generalizing old with
  | nil => rfl
  | cons row rows ih =>
      obtain ⟨tank, hTank⟩ := Option.isSome_iff_exists.mp (hFound row List.mem_cons_self)
      have hNext : nextTank tanks old row = tanks.find? (·.idTank = row.idTank) := by
        rw [nextTank, hTank]
        rfl
      rw [nozzlesFrom, hNext, ih _ fun other hMem => hFound other (List.mem_cons_of_mem _ hMem)]
      rfl

/-- The tanks have their products. -/
theorem tovar_ne_none (hLinked : TanksLinked t) {tank : Tank} (hMem : tank ∈ loadedTanks t) :
    tank.tovar ≠ none := by
  obtain ⟨row, hRow, rfl⟩ := List.mem_map.mp hMem
  obtain ⟨tovar, hTovar, hId⟩ := hLinked.tovars row (List.mem_mergeSort.mp hRow)
  refine Option.isSome_iff_ne_none.mp (List.find?_isSome.mpr ?_)
  exact ⟨_, List.mem_map_of_mem (List.mem_mergeSort.mpr hTovar), decide_eq_true hId⟩

/-- The joined rows have their tanks. -/
theorem hasTank_of_linked (hLinked : TanksLinked t) {row : PistRow}
    (hMem : row ∈ pistRows station t) : HasTank t row := by
  obtain ⟨com, -, -, pist, hPist, -, rfl⟩ := mem_pistRows.mp hMem
  exact hLinked.tanks pist hPist

/-- The nozzles of the loaded pumps are the joined rows with their tanks. -/
theorem forall_nozzle_iff (hLinked : TanksLinked t) (hLoad : loadedTrks station t = some trks)
    {good : Pist → Prop} :
    (∀ trk ∈ trks, ∀ pist ∈ trk.pists, good pist) ↔
      ∀ row ∈ pistRows station t,
        good (rowPist ((loadedTanks t).find? (·.idTank = row.idTank)) row) := by
  obtain ⟨s, rfl, hLoop⟩ := loadTrks_spec hLoad
  -- a tank is found for every row, so no nozzle keeps the tank of the one before
  have hNozzles := hLoop.nozzles
  rw [nozzlesFrom_of_found none fun row hMem => (find?_loadedTanks_isSome_iff t row).mpr
    (hasTank_of_linked hLinked hMem)] at hNozzles
  constructor
  · intro hAll row hMem
    have hPist : rowPist ((loadedTanks t).find? (·.idTank = row.idTank)) row ∈
        s.trks.flatMap (·.pists) := by
      rw [hNozzles]
      exact List.mem_map_of_mem hMem
    obtain ⟨trk, hTrk, hIn⟩ := List.mem_flatMap.mp hPist
    exact hAll trk hTrk _ hIn
  · intro hAll trk hTrk pist hPist
    have hIn : pist ∈ s.trks.flatMap (·.pists) := List.mem_flatMap.mpr ⟨trk, hTrk, hPist⟩
    rw [hNozzles] at hIn
    obtain ⟨row, hRow, rfl⟩ := List.mem_map.mp hIn
    exact hAll row hRow

theorem shown_ne_none (hLinked : TanksLinked t) (hLoad : loadedTrks station t = some trks) :
    ∀ trk ∈ trks, ∀ pist ∈ trk.pists, pist.shown ≠ none := by
  refine (forall_nozzle_iff hLinked hLoad).mpr fun row hMem => ?_
  obtain ⟨tank, hTank⟩ := Option.isSome_iff_exists.mp
    ((find?_loadedTanks_isSome_iff t row).mpr (hasTank_of_linked hLinked hMem))
  show ((loadedTanks t).find? (·.idTank = row.idTank) >>= (·.tovar)) ≠ none
  rw [hTank]
  exact tovar_ne_none hLinked (List.mem_of_find?_eq_some hTank)

/-- The names behind the nozzles. -/
theorem forall_shown_iff (hLinked : TanksLinked t) (hLoad : loadedTrks station t = some trks) :
    (∀ trk ∈ trks, ∀ pist ∈ trk.pists, ∀ tovar ∈ pist.shown, Utf8 tovar.name) ↔
      ∀ row ∈ pistRows station t, ∀ tovar ∈ rowTovar t row, Utf8 tovar.name :=
  forall_nozzle_iff hLinked hLoad

/-- Without joined rows there are no pumps. -/
theorem trks_eq_nil_iff (hLoad : loadedTrks station t = some trks) :
    trks = [] ↔ pistRows station t = [] := by
  obtain ⟨s, rfl, hLoop⟩ := loadTrks_spec hLoad
  constructor
  · intro hNone
    refine List.eq_nil_iff_forall_not_mem.mpr fun row hMem => ?_
    obtain ⟨trk, hTrk, -⟩ := hLoop.covers row hMem
    rw [hNone] at hTrk
    cases hTrk
  · intro hNone
    refine List.eq_nil_iff_forall_not_mem.mpr fun trk hTrk => ?_
    obtain ⟨row, hRow, -⟩ := (hLoop.built trk hTrk).head
    rw [hNone] at hRow
    cases hRow

/-- A product is shown through a tank. -/
theorem exists_tank_of_shown {pist : Pist} (hShown : pist.shown ≠ none) :
    ∃ tank tovar, pist.tank = some tank ∧ tank.tovar = some tovar := by
  obtain ⟨tovar, hTovar⟩ := Option.ne_none_iff_exists'.mp hShown
  obtain ⟨tank, hTank, hLink⟩ := Option.bind_eq_some_iff.mp hTovar
  exact ⟨tank, tovar, hTank, hLink⟩

/-- A nozzle with its product has no null pointer on the main page. -/
theorem mainPump_ne_none {trk : Trk} (screen : ScreenSize)
    (hShown : ∀ pist ∈ trk.pists, pist.shown ≠ none) : mainPump screen trk ≠ none := by
  have hPists : trk.pists.mapM mainPist ≠ none := by
    refine mapM_ne_none fun pist hPist => ?_
    obtain ⟨tank, tovar, hTank, hLink⟩ := exists_tank_of_shown (hShown pist hPist)
    rw [mainPist, hTank]
    show (tank.tovar >>= _) ≠ none
    rw [hLink]
    exact Option.some_ne_none _
  obtain ⟨values, hValues⟩ := Option.ne_none_iff_exists'.mp hPists
  rw [mainPump, hValues]
  exact Option.some_ne_none _

theorem configPump_ne_none {trk : Trk} (hShown : ∀ pist ∈ trk.pists, pist.shown ≠ none) :
    configPump trk ≠ none := by
  have hPists : trk.pists.mapM configPist ≠ none := by
    refine mapM_ne_none fun pist hPist => ?_
    obtain ⟨tank, tovar, hTank, hLink⟩ := exists_tank_of_shown (hShown pist hPist)
    rw [configPist, hTank]
    show (tank.tovar >>= _) ≠ none
    rw [hLink]
    exact Option.some_ne_none _
  obtain ⟨values, hValues⟩ := Option.ne_none_iff_exists'.mp hPists
  rw [configPump, hValues]
  exact Option.some_ne_none _

/-- Over linked tables no page follows a null pointer. -/
theorem mainPumps_ne_none (hLinked : TanksLinked t) (hLoad : loadedTrks station t = some trks)
    (screen : ScreenSize) : trks.mapM (mainPump screen) ≠ none :=
  mapM_ne_none fun trk hTrk => mainPump_ne_none screen (shown_ne_none hLinked hLoad trk hTrk)

theorem configPumps_ne_none (hLinked : TanksLinked t) (hLoad : loadedTrks station t = some trks) :
    trks.mapM configPump ≠ none :=
  mapM_ne_none fun trk hTrk => configPump_ne_none (shown_ne_none hLinked hLoad trk hTrk)

theorem configTanks_ne_none (hLinked : TanksLinked t) : (loadedTanks t).mapM configTank ≠ none := by
  refine mapM_ne_none fun tank hTank => ?_
  obtain ⟨tovar, hTovar⟩ := Option.ne_none_iff_exists'.mp (tovar_ne_none hLinked hTank)
  rw [configTank, hTovar]
  exact Option.some_ne_none _

end Shown

/-! ## The contexts of the pages -/

section Contexts

variable {value : Json} {pist : Pist} {trk : Trk} {tank : Tank} {screen : ScreenSize}

theorem shown_eq (pist : Pist) (tank : Tank) (tovar : Tovar) (hTank : pist.tank = some tank)
    (hTovar : tank.tovar = some tovar) : pist.shown = some tovar := by
  rw [Pist.shown, hTank]
  exact hTovar

theorem dumpable_float_text (q : Rat) : Dumpable (.string (floatText q)) :=
  .string (Json.utf8_of_ascii fun _ => fixedText_ascii)

theorem dumpable_price_text (q : Rat) : Dumpable (.string (cutPrice (floatText q))) :=
  .string (Json.utf8_of_ascii fun _ hMem => fixedText_ascii (List.mem_of_mem_take hMem))

theorem dumpable_color_text (color : Color) : Dumpable (.string (colorText color)) := by
  have hComma : ∀ c ∈ ascii ",", c < 128 := by decide +kernel
  refine .string (Json.utf8_of_ascii fun c hMem => ?_)
  unfold colorText at hMem
  simp only [List.mem_append] at hMem
  rcases hMem with (((hR | hFirst) | hG) | hSecond) | hB
  · exact intToString_ascii hR
  · exact hComma c hFirst
  · exact intToString_ascii hG
  · exact hComma c hSecond
  · exact intToString_ascii hB

/-- A nozzle on the main page shows one text that may be no UTF-8. -/
theorem mainPist_spec (hShow : mainPist pist = some value) :
    (∀ n, Nests (n + 1) value) ∧ (Dumpable value ↔ ∀ tovar ∈ pist.shown, Utf8 tovar.name) := by
  obtain ⟨tank, hTank, hShow⟩ := Option.bind_eq_some_iff.mp hShow
  obtain ⟨tovar, hTovar, hShow⟩ := Option.bind_eq_some_iff.mp hShow
  obtain rfl := Option.some.inj hShow
  rw [shown_eq pist tank tovar hTank hTovar]
  simp only [Option.mem_def, Option.some.injEq, forall_eq']
  constructor
  · intro n
    refine .object ?_
    simp only [colorMembers, jsonKey, List.cons_append, List.nil_append, List.forall_mem_cons,
      List.not_mem_nil, false_imp_iff, implies_true, and_true]
    exact ⟨.int _, .string _, .string _, .int _, .int _, .int _⟩
  · refine ⟨fun hDump => Json.dumpable_string_iff.mp (hDump.field "name" rfl), fun hName => ?_⟩
    apply dumpable_object
    simp only [colorMembers, jsonKey, List.cons_append, List.nil_append, List.forall_mem_cons,
      List.not_mem_nil, false_imp_iff, implies_true, and_true]
    exact ⟨⟨utf8_ascii (by decide), .int _⟩, ⟨utf8_ascii (by decide), .string hName⟩,
      ⟨utf8_ascii (by decide), dumpable_price_text _⟩, ⟨utf8_ascii (by decide), .int _⟩,
      ⟨utf8_ascii (by decide), .int _⟩, utf8_ascii (by decide), .int _⟩

/-- A pump on the main page shows the texts of its nozzles. -/
theorem mainPump_spec (hShow : mainPump screen trk = some value) :
    (∀ n, Nests (n + 3) value) ∧
      (Dumpable value ↔ ∀ pist ∈ trk.pists, ∀ tovar ∈ pist.shown, Utf8 tovar.name) := by
  obtain ⟨pists, hPists, hShow⟩ := Option.bind_eq_some_iff.mp hShow
  obtain rfl := Option.some.inj hShow
  have hNests : ∀ n, ∀ pist ∈ pists, Nests (n + 1) pist := fun n =>
    (forall_mem_mapM_iff hPists fun pist _ value hRead =>
      iff_of_true ((mainPist_spec hRead).1 n) trivial).mpr fun _ _ => trivial
  have hDumps : (∀ value ∈ pists, Dumpable value) ↔
      ∀ pist ∈ trk.pists, ∀ tovar ∈ pist.shown, Utf8 tovar.name :=
    forall_mem_mapM_iff hPists fun pist _ value hRead => (mainPist_spec hRead).2
  -- a division by the width 0 is written as a null, which has no text
  have hPercent : ∀ pos width : Int, Dumpable (percent pos width) ∧ ∀ n, Nests n (percent pos width) := by
    intro pos width
    unfold percent
    split_ifs
    · exact ⟨.null, fun _ => .null⟩
    · exact ⟨.float _, fun _ => .float _⟩
  constructor
  · intro n
    refine .object ?_
    simp only [jsonKey, List.forall_mem_cons, List.not_mem_nil, false_imp_iff, implies_true, and_true]
    exact ⟨.int _, (hPercent _ _).2 _, (hPercent _ _).2 _, .string _, .array (hNests n)⟩
  · rw [← hDumps]
    refine ⟨fun hDump => Json.dumpable_array_iff.mp (hDump.field "pist" rfl), fun hPists => ?_⟩
    apply dumpable_object
    simp only [jsonKey, List.forall_mem_cons, List.not_mem_nil, false_imp_iff, implies_true, and_true]
    exact ⟨⟨utf8_ascii (by decide), .int _⟩, ⟨utf8_ascii (by decide), (hPercent _ _).1⟩,
      ⟨utf8_ascii (by decide), (hPercent _ _).1⟩,
      ⟨utf8_ascii (by decide), dumpable_float_text _⟩, utf8_ascii (by decide), .array hPists⟩

/-- A nozzle on the page of the configuration. -/
theorem configPist_spec (hShow : configPist pist = some value) :
    (∀ n, Nests (n + 1) value) ∧ (Dumpable value ↔ ∀ tovar ∈ pist.shown, Utf8 tovar.name) := by
  obtain ⟨tank, hTank, hShow⟩ := Option.bind_eq_some_iff.mp hShow
  obtain ⟨tovar, hTovar, hShow⟩ := Option.bind_eq_some_iff.mp hShow
  obtain rfl := Option.some.inj hShow
  rw [shown_eq pist tank tovar hTank hTovar]
  simp only [Option.mem_def, Option.some.injEq, forall_eq']
  constructor
  · intro n
    refine .object ?_
    simp only [jsonKey, List.forall_mem_cons, List.not_mem_nil, false_imp_iff, implies_true, and_true]
    exact ⟨.int _, .int _, .string _, .int _, .string _, .float _⟩
  · refine ⟨fun hDump => Json.dumpable_string_iff.mp (hDump.field "name" rfl), fun hName => ?_⟩
    apply dumpable_object
    simp only [jsonKey, List.forall_mem_cons, List.not_mem_nil, false_imp_iff, implies_true, and_true]
    exact ⟨⟨utf8_ascii (by decide), .int _⟩, ⟨utf8_ascii (by decide), .int _⟩,
      ⟨utf8_ascii (by decide), dumpable_color_text _⟩, ⟨utf8_ascii (by decide), .int _⟩,
      ⟨utf8_ascii (by decide), .string hName⟩, utf8_ascii (by decide), .float _⟩

/-- A pump on the page of the configuration. -/
theorem configPump_spec (hShow : configPump trk = some value) :
    (∀ n, Nests (n + 3) value) ∧
      (Dumpable value ↔ ∀ pist ∈ trk.pists, ∀ tovar ∈ pist.shown, Utf8 tovar.name) := by
  obtain ⟨pists, hPists, hShow⟩ := Option.bind_eq_some_iff.mp hShow
  obtain rfl := Option.some.inj hShow
  have hNests : ∀ n, ∀ pist ∈ pists, Nests (n + 1) pist := fun n =>
    (forall_mem_mapM_iff hPists fun pist _ value hRead =>
      iff_of_true ((configPist_spec hRead).1 n) trivial).mpr fun _ _ => trivial
  have hDumps : (∀ value ∈ pists, Dumpable value) ↔
      ∀ pist ∈ trk.pists, ∀ tovar ∈ pist.shown, Utf8 tovar.name :=
    forall_mem_mapM_iff hPists fun pist _ value hRead => (configPist_spec hRead).2
  constructor
  · intro n
    refine .object ?_
    simp only [jsonKey, List.forall_mem_cons, List.not_mem_nil, false_imp_iff, implies_true, and_true]
    exact ⟨.int _, .array (hNests n)⟩
  · rw [← hDumps]
    refine ⟨fun hDump => Json.dumpable_array_iff.mp (hDump.field "pists" rfl), fun hPists => ?_⟩
    apply dumpable_object
    simp only [jsonKey, List.forall_mem_cons, List.not_mem_nil, false_imp_iff, implies_true, and_true]
    exact ⟨⟨utf8_ascii (by decide), .int _⟩, utf8_ascii (by decide), .array hPists⟩

/-- A tank on the page of the configuration. -/
theorem configTank_spec (hShow : configTank tank = some value) :
    (∀ n, Nests (n + 1) value) ∧ (Dumpable value ↔ ∀ tovar ∈ tank.tovar, Utf8 tovar.name) := by
  obtain ⟨tovar, hTovar, hShow⟩ := Option.bind_eq_some_iff.mp hShow
  obtain rfl := Option.some.inj hShow
  rw [hTovar]
  simp only [Option.mem_def, Option.some.injEq, forall_eq']
  constructor
  · intro n
    refine .object ?_
    simp only [jsonKey, List.forall_mem_cons, List.not_mem_nil, false_imp_iff, implies_true, and_true]
    exact ⟨.int _, .string _, .int _, .string _, .float _⟩
  · refine ⟨fun hDump => Json.dumpable_string_iff.mp (hDump.field "name" rfl), fun hName => ?_⟩
    apply dumpable_object
    simp only [jsonKey, List.forall_mem_cons, List.not_mem_nil, false_imp_iff, implies_true, and_true]
    exact ⟨⟨utf8_ascii (by decide), .int _⟩, ⟨utf8_ascii (by decide), dumpable_color_text _⟩,
      ⟨utf8_ascii (by decide), .int _⟩, ⟨utf8_ascii (by decide), .string hName⟩,
      utf8_ascii (by decide), .float _⟩

end Contexts

/-! ## Which pages end the reply -/

/-- `get_Trks_with_all` returns: the screen sizes can be read, and the first joined row is
not one of a pump -1. -/
def PumpsLoad (station : Int) (t : Mysql.Tables) : Prop :=
  loadedSizes t ≠ none ∧ (pistRows station t).head?.map (·.idTrk) ≠ some (-1)

/-- The names of the products are UTF-8. -/
def NamesWritten (t : Mysql.Tables) : Prop :=
  ∀ row ∈ t.tovar, Utf8 row.name ∧ Utf8 row.nameP ∧ Utf8 row.namePF ∧ Utf8 row.namePV

/-- The main page. -/
def MainPageCompletes (station : Int) (t : Mysql.Tables) : Prop :=
  PumpsLoad station t ∧ ∀ row ∈ pistRows station t, ∀ tovar ∈ rowTovar t row, Utf8 tovar.name

/-- The pages of the administrator.  `api_trk_save` never ends its reply: its JSON value is
a string, and `operator[]` throws on a string. -/
def AdminCompletes (pl : Platform) (station : Int) (t : Mysql.Tables) (body : Bytes) :
    ClientCall → Prop
  | .mainTrk => MainPageCompletes station t
  | .oldMainSettingsConfig =>
      PumpsLoad station t ∧ pistRows station t ≠ [] ∧
        ∀ tank ∈ loadedTanks t, ∀ tovar ∈ tank.tovar, Utf8 tovar.name
  | .apiTrkSave => False
  | .apiSettingsGet => PumpsLoad station t ∧ NamesWritten t
  | .apiSettingsSet => ∃ json, pl.parse body = some json ∧ json.field "tovars" ≠ none
  | .apiSettingsDelete => pl.parse body ≠ none
  | .apiSettingsTovarsGet => NamesWritten t
  | .apiSettingsTrksGet => (pistRows station t).head?.map (·.idTrk) ≠ some (-1)
  | _ => True

/-- The pages of the user. -/
def UserCompletes (station : Int) (t : Mysql.Tables) : ClientCall → Prop
  | .mainTrk => MainPageCompletes station t
  | _ => True

section Pages

variable {pl : Platform} {con : Connection} {w : World}

theorem serves_mapResponse (hServes : Serves con w) (f : Response → Response) :
    Serves con (w.mapResponse f) := ⟨hServes.con_eq, hServes.schema, hServes.sql⟩

/-- A page that begins with `get_Trks_with_all`. -/
theorem completed_withAll_iff {rest : TrksWithAll → Prog Unit} {cond : Prop}
    (hServes : Serves con w)
    (hRest : ∀ screen trks next, loadedTrks (w.station pl) (w.tables con) = some trks →
      (Completed (rest ⟨screen, loadedTovars (w.tables con), loadedTanks (w.tables con), trks⟩ next) ↔
        cond)) :
    Completed ((getTrksWithAll pl >>= rest) w) ↔
      PumpsLoad (w.station pl) (w.tables con) ∧ cond := by
  have hHead : loadedTrks (w.station pl) (w.tables con) = none ↔
      (pistRows (w.station pl) (w.tables con)).head?.map (·.idTrk) = some (-1) :=
    loadTrks_eq_none_iff
  unfold PumpsLoad
  rw [ne_eq (Option.map _ _), ← hHead]
  cases hSizes : loadedSizes (w.tables con) with
  | none =>
      obtain ⟨next, hRun, -⟩ := getTrksWithAll_throws pl hServes hSizes
      exact iff_of_false (not_completed_of_error hRun) fun hCond => hCond.1.1 rfl
  | some sizes =>
      cases hLoad : loadedTrks (w.station pl) (w.tables con) with
      | none =>
          -- an undefined access ends no reply either
          obtain ⟨next, hRun⟩ := getTrksWithAll_undefined pl hServes hSizes hLoad
          exact iff_of_false (not_completed_of_error hRun) fun hCond => hCond.1.2 rfl
      | some trks =>
          obtain ⟨next, hRun, -⟩ := getTrksWithAll_serves pl hServes hSizes hLoad
          rw [completed_bind_of_ok hRun, hRest _ trks next hLoad]
          exact ⟨fun hCond => ⟨⟨Option.some_ne_none _, Option.some_ne_none _⟩, hCond⟩, And.right⟩

theorem orUndefined_some_run {α : Type} (a : α) (w : World) : orUndefined (some a) w = .ok a w := rfl

/-- The state behind `set_header` of a page. -/
def World.htmlReply (w : World) : World :=
  w.mapResponse fun r =>
    { r with
      headers := r.headers.filter (fun h => h.1 ≠ ascii "Content-Type") ++
        [(ascii "Content-Type", ascii "text/html")] }

theorem htmlHeader_run (w : World) : htmlHeader w = .ok ⟨⟩ w.htmlReply := rfl

/-- The context of the main page. -/
def mainContext (admin : List (Bytes × Json)) (pumps : List Json) (screen : ScreenSize)
    (trks : List Trk) : Json :=
  .object (admin ++ jsonKey "pump" (.array pumps) ::
    (if trks = [] then [] else [jsonKey "screen_width" (.int screen.width)]))

/-- The pumps alone decide whether it can be written. -/
theorem mainContext_spec {admin : List (Bytes × Json)} {pumps : List Json} (screen : ScreenSize)
    (trks : List Trk) (hAdmin : ∀ m ∈ admin, m.1 ≠ ascii "pump" ∧ Utf8 m.1 ∧ Dumpable m.2)
    (hFlat : ∀ m ∈ admin, ∀ n, Nests n m.2) (hNests : ∀ pump ∈ pumps, Nests 98 pump) :
    Nests 100 (mainContext admin pumps screen trks) ∧
      (Dumpable (mainContext admin pumps screen trks) ↔ ∀ pump ∈ pumps, Dumpable pump) := by
  have hWidth : ∀ m ∈ (if trks = [] then [] else [jsonKey "screen_width" (.int screen.width)]),
      Utf8 m.1 ∧ Dumpable m.2 ∧ ∀ n, Nests n m.2 := by
    split_ifs
    · exact fun m hMem => by cases hMem
    · intro m hMem
      rw [List.mem_singleton.mp hMem]
      exact ⟨utf8_ascii (by decide), .int _, fun _ => .int _⟩
  constructor
  · refine .object fun m hMem => ?_
    rcases List.mem_append.mp hMem with hFirst | hRest
    · exact hFlat m hFirst 99
    · rcases List.mem_cons.mp hRest with rfl | hLast
      · exact .array hNests
      · exact (hWidth m hLast).2.2 99
  · constructor
    · intro hDump
      have hField : (mainContext admin pumps screen trks).field "pump" = some (.array pumps) := by
        have hNone : admin.find? (fun m => m.1 = ascii "pump") = none :=
          List.find?_eq_none.mpr fun m hMem hSame => (hAdmin m hMem).1 (of_decide_eq_true hSame)
        show some _ = _
        rw [List.find?_append, hNone]
        rfl
      exact Json.dumpable_array_iff.mp (hDump.field "pump" hField)
    · intro hPumps
      refine dumpable_object fun m hMem => ?_
      rcases List.mem_append.mp hMem with hFirst | hRest
      · exact (hAdmin m hFirst).2
      · rcases List.mem_cons.mp hRest with rfl | hLast
        · exact ⟨utf8_ascii (by decide), .array hPumps⟩
        · exact ⟨(hWidth m hLast).1, (hWidth m hLast).2.1⟩

/-- Both main pages. -/
theorem completed_mainPage_iff (hJson : WritesJson pl) (hServes : Serves con w)
    (hConsistent : Consistent (w.tables con)) {admin : List (Bytes × Json)}
    (hAdmin : ∀ m ∈ admin, m.1 ≠ ascii "pump" ∧ Utf8 m.1 ∧ Dumpable m.2)
    (hFlat : ∀ m ∈ admin, ∀ n, Nests n m.2) :
    Completed (mainPage pl admin w) ↔ MainPageCompletes (w.station pl) (w.tables con) := by
  have hHeader : Serves con w.htmlReply := serves_mapResponse hServes _
  rw [mainPage, completed_bind_of_ok (htmlHeader_run w)]
  refine completed_withAll_iff hHeader fun screen trks next hLoad => ?_
  obtain ⟨pumps, hPumps⟩ := Option.ne_none_iff_exists'.mp
    (mainPumps_ne_none hConsistent.linked hLoad screen)
  have hNests : ∀ pump ∈ pumps, Nests 98 pump :=
    (forall_mem_mapM_iff hPumps fun trk _ value hRead =>
      iff_of_true ((mainPump_spec hRead).1 95) trivial).mpr fun _ _ => trivial
  have hDumps : (∀ pump ∈ pumps, Dumpable pump) ↔
      ∀ trk ∈ trks, ∀ pist ∈ trk.pists, ∀ tovar ∈ pist.shown, Utf8 tovar.name :=
    forall_mem_mapM_iff hPumps fun trk _ value hRead => (mainPump_spec hRead).2
  obtain ⟨hContext, hIff⟩ := mainContext_spec screen trks hAdmin hFlat hNests
  rw [hPumps, completed_bind_of_ok (orUndefined_some_run pumps next)]
  exact (completed_page_iff hJson hContext _).trans
    (hIff.trans (hDumps.trans (forall_shown_iff hConsistent.linked hLoad)))

theorem completed_mainTrk_iff (hJson : WritesJson pl) (hServes : Serves con w)
    (hConsistent : Consistent (w.tables con)) :
    (Completed (Admin.mainTrk pl w) ↔ MainPageCompletes (w.station pl) (w.tables con)) ∧
      (Completed (User.mainTrk pl w) ↔ MainPageCompletes (w.station pl) (w.tables con)) := by
  have hKey : ascii "admin" ≠ ascii "pump" := by decide
  constructor
  · refine completed_mainPage_iff hJson hServes hConsistent (fun m hMem => ?_) fun m hMem n => ?_
    · rw [List.mem_singleton.mp hMem]
      exact ⟨hKey, utf8_ascii (by decide), .bool true⟩
    · rw [List.mem_singleton.mp hMem]
      exact .bool true
  · exact completed_mainPage_iff hJson hServes hConsistent (fun _ hMem => by cases hMem)
      fun _ hMem => by cases hMem

/-- The names of the tanks decide whether the context of the configuration can be written;
the nozzles show no other ones. -/
theorem configContext_spec {t : Mysql.Tables} {station : Int} {trks : List Trk}
    {pumps tanks : List Json} (hConsistent : Consistent t)
    (hLoad : loadedTrks station t = some trks) (hPumps : trks.mapM configPump = some pumps)
    (hTanks : (loadedTanks t).mapM configTank = some tanks) :
    Nests 100 (.object [jsonKey "pumps" (.array pumps), jsonKey "tanks" (.array tanks)]) ∧
      (Dumpable (.object [jsonKey "pumps" (.array pumps), jsonKey "tanks" (.array tanks)]) ↔
        ∀ tank ∈ loadedTanks t, ∀ tovar ∈ tank.tovar, Utf8 tovar.name) := by
  have hPumpNests : ∀ pump ∈ pumps, Nests 98 pump :=
    (forall_mem_mapM_iff hPumps fun trk _ value hRead =>
      iff_of_true ((configPump_spec hRead).1 95) trivial).mpr fun _ _ => trivial
  have hTankNests : ∀ tank ∈ tanks, Nests 98 tank :=
    (forall_mem_mapM_iff hTanks fun tank _ value hRead =>
      iff_of_true ((configTank_spec hRead).1 97) trivial).mpr fun _ _ => trivial
  have hPumpDumps : (∀ pump ∈ pumps, Dumpable pump) ↔
      ∀ trk ∈ trks, ∀ pist ∈ trk.pists, ∀ tovar ∈ pist.shown, Utf8 tovar.name :=
    forall_mem_mapM_iff hPumps fun trk _ value hRead => (configPump_spec hRead).2
  have hTankDumps : (∀ tank ∈ tanks, Dumpable tank) ↔
      ∀ tank ∈ loadedTanks t, ∀ tovar ∈ tank.tovar, Utf8 tovar.name :=
    forall_mem_mapM_iff hTanks fun tank _ value hRead => (configTank_spec hRead).2
  constructor
  · refine .object ?_
    simp only [jsonKey, List.forall_mem_cons, List.not_mem_nil, false_imp_iff, implies_true, and_true]
    exact ⟨.array hPumpNests, .array hTankNests⟩
  · constructor
    · exact fun hDump => hTankDumps.mp (Json.dumpable_array_iff.mp (hDump.field "tanks" rfl))
    · intro hNames
      -- the product behind a nozzle is the one of a tank
      have hShown : ∀ row ∈ pistRows station t, ∀ tovar ∈ rowTovar t row, Utf8 tovar.name := by
        intro row _ tovar hTovar
        obtain ⟨tank, hTank, hLink⟩ := Option.bind_eq_some_iff.mp hTovar
        exact hNames tank (List.mem_of_find?_eq_some hTank) tovar hLink
      have hPumpNames := (forall_shown_iff hConsistent.linked hLoad).mpr hShown
      apply dumpable_object
      simp only [jsonKey, List.forall_mem_cons, List.not_mem_nil, false_imp_iff, implies_true,
        and_true]
      exact ⟨⟨utf8_ascii (by decide), .array (hPumpDumps.mpr hPumpNames)⟩,
        utf8_ascii (by decide), .array (hTankDumps.mpr hNames)⟩

/-- The page of the configuration needs a pump, whose absence is no exception either. -/
theorem completed_oldMainSettingsConfig_iff (hJson : WritesJson pl) (hServes : Serves con w)
    (hConsistent : Consistent (w.tables con)) :
    Completed (Admin.oldMainSettingsConfig pl w) ↔
      PumpsLoad (w.station pl) (w.tables con) ∧ pistRows (w.station pl) (w.tables con) ≠ [] ∧
        ∀ tank ∈ loadedTanks (w.tables con), ∀ tovar ∈ tank.tovar, Utf8 tovar.name := by
  refine completed_withAll_iff hServes fun screen trks next hLoad => ?_
  have hRows := trks_eq_nil_iff hLoad
  by_cases hEmpty : trks = []
  · refine iff_of_false ?_ fun hCond => hCond.1 (hRows.mp hEmpty)
    -- `trks[0]` of no pumps
    rintro ⟨other, hOk, -⟩
    rw [ite_run, if_pos hEmpty] at hOk
    cases hOk
  · obtain ⟨pumps, hPumps⟩ := Option.ne_none_iff_exists'.mp
      (configPumps_ne_none hConsistent.linked hLoad)
    obtain ⟨tanks, hValues⟩ := Option.ne_none_iff_exists'.mp
      (configTanks_ne_none hConsistent.linked)
    rw [ite_run, if_neg hEmpty, hPumps, completed_bind_of_ok (orUndefined_some_run pumps next),
      hValues, completed_bind_of_ok (orUndefined_some_run tanks next),
      completed_bind_of_ok (htmlHeader_run next)]
    obtain ⟨hNests, hIff⟩ := configContext_spec hConsistent hLoad hPumps hValues
    refine (completed_page_iff hJson hNests _).trans (hIff.trans ?_)
    exact ⟨fun hNames => ⟨fun hNone => hEmpty (hRows.mpr hNone), hNames⟩, And.right⟩

/-- `smena_close` returns in any case. -/
theorem completed_endShift (pl : Platform) (hServes : Serves con w) : Completed (endShift pl w) := by
  obtain ⟨next, hRun, -⟩ := smenaClose_tables pl hServes
  rw [endShift, completed_bind_of_ok hRun]
  exact ⟨_, rfl, rfl⟩

theorem dumpable_of_arrayOf {values : List Json} {value : Json} (hDump : Dumpable (arrayOf values))
    (hMem : value ∈ values) : Dumpable value := by
  unfold arrayOf at hDump
  rw [if_neg (List.ne_nil_of_mem hMem)] at hDump
  exact hDump.element hMem

/-- A product shows its four names. -/
theorem names_of_dumpable {tovar : Tovar} (hDump : Dumpable (tovarJson tovar)) :
    Utf8 tovar.name ∧ Utf8 tovar.nameP ∧ Utf8 tovar.namePF ∧ Utf8 tovar.namePV :=
  ⟨Json.dumpable_string_iff.mp (hDump.field "name" rfl),
    Json.dumpable_string_iff.mp (hDump.field "name_p" rfl),
    Json.dumpable_string_iff.mp (hDump.field "name_p_f" rfl),
    Json.dumpable_string_iff.mp (hDump.field "name_p_v" rfl)⟩

/-- The reply of `api_settings_get` needs the names, and nothing else. -/
theorem dumpable_loadedContext_iff {t : Mysql.Tables} (trks : List Trk) :
    Dumpable (loadedContext t trks) ↔ NamesWritten t := by
  constructor
  · intro hDump row hRow
    obtain ⟨hTovars, -, -⟩ := field_settings ((loadedTovars t).map tovarJson)
      ((loadedTanks t).map tankJson) (trks.map trkJson)
    have hMem : loadTovarPrice row ∈ loadedTovars t :=
      List.mem_map_of_mem (List.mem_mergeSort.mpr hRow)
    exact names_of_dumpable
      (dumpable_of_arrayOf (hDump.field "tovars" hTovars) (List.mem_map_of_mem hMem))
  · exact fun hNames => dumpable_loadedContext trks hNames

theorem completed_apiSettingsGet_iff (hJson : WritesJson pl) (hServes : Serves con w) :
    Completed (Admin.apiSettingsGet pl w) ↔
      PumpsLoad (w.station pl) (w.tables con) ∧ NamesWritten (w.tables con) := by
  have hHeader : Serves con w.jsonReply := serves_mapResponse hServes _
  rw [Admin.apiSettingsGet, completed_bind_of_ok (jsonHeader_run w)]
  refine completed_withAll_iff hHeader fun screen trks next hLoad => ?_
  refine (completed_replyJson_iff hJson).trans ?_
  exact dumpable_loadedContext_iff trks

theorem completed_apiSettingsTovarsGet_iff (hJson : WritesJson pl) (hServes : Serves con w) :
    Completed (Admin.apiSettingsTovarsGet pl w) ↔ NamesWritten (w.tables con) := by
  have hHeader : Serves con w.jsonReply := serves_mapResponse hServes _
  obtain ⟨next, hRun, -⟩ := getTovars_serves hHeader
  rw [Admin.apiSettingsTovarsGet, completed_bind_of_ok (jsonHeader_run w), completed_bind_of_ok hRun,
    completed_replyJson_iff hJson]
  have hMem : ∀ row ∈ (w.tables con).tovar, tovarJson (loadTovar row) ∈
      ((tovarRows (w.tables con)).map loadTovar).map tovarJson := fun row hRow =>
    List.mem_map_of_mem (List.mem_map_of_mem (List.mem_mergeSort.mpr hRow))
  constructor
  · intro hDump row hRow
    exact names_of_dumpable (dumpable_of_arrayOf
      (hDump.field "tovars" (field_single "tovars" _)) (hMem row hRow))
  · intro hNames
    refine dumpable_contextOf (dumpable_arrayMember (utf8_ascii (by decide)) fun value hValue => ?_)
    obtain ⟨tovar, hTovar, rfl⟩ := List.mem_map.mp hValue
    obtain ⟨row, hRow, rfl⟩ := List.mem_map.mp hTovar
    obtain ⟨hName, hNameP, hNamePF, hNamePV⟩ := hNames row (List.mem_mergeSort.mp hRow)
    exact dumpable_tovarJson hName hNameP hNamePF hNamePV

theorem completed_apiSettingsTanksGet (hJson : WritesJson pl) (hServes : Serves con w) :
    Completed (Admin.apiSettingsTanksGet pl w) := by
  have hHeader : Serves con w.jsonReply := serves_mapResponse hServes _
  obtain ⟨next, hRun, -⟩ := getTanks_serves hHeader
  rw [Admin.apiSettingsTanksGet, completed_bind_of_ok (jsonHeader_run w), completed_bind_of_ok hRun,
    completed_replyJson_iff hJson]
  refine dumpable_contextOf (dumpable_arrayMember (utf8_ascii (by decide)) fun value hValue => ?_)
  obtain ⟨tank, -, rfl⟩ := List.mem_map.mp hValue
  exact dumpable_tankJson tank

theorem completed_apiSettingsTrksGet_iff (hJson : WritesJson pl) (hServes : Serves con w) :
    Completed (Admin.apiSettingsTrksGet pl w) ↔
      (pistRows (w.station pl) (w.tables con)).head?.map (·.idTrk) ≠ some (-1) := by
  have hHeader : Serves con w.jsonReply := serves_mapResponse hServes _
  rw [Admin.apiSettingsTrksGet, completed_bind_of_ok (jsonHeader_run w)]
  cases hLoad : loadTrks [] (pistRows (w.station pl) (w.tables con)) with
  | none =>
      obtain ⟨next, hRun⟩ := getTrks_undefined pl hHeader hLoad
      exact iff_of_false (not_completed_of_error hRun) fun hHead => hHead (loadTrks_eq_none_iff.mp hLoad)
  | some trks =>
      obtain ⟨next, hRun, -⟩ := getTrks_serves pl hHeader hLoad
      rw [completed_bind_of_ok hRun, completed_replyJson_iff hJson]
      refine iff_of_true ?_ fun hHead => ?_
      · refine dumpable_contextOf (dumpable_arrayMember (utf8_ascii (by decide)) fun value hValue => ?_)
        obtain ⟨trk, -, rfl⟩ := List.mem_map.mp hValue
        exact dumpable_object (dumpable_trkMembers trk)
      · have hNone : loadTrks [] (pistRows (w.station pl) (w.tables con)) = none :=
          loadTrks_eq_none_iff.mpr hHead
        rw [hLoad] at hNone
        cases hNone

/-- An array of an object or of null can be read whatever its key is. -/
theorem exists_arrayElements {json : Json} (hField : json.field "tovars" ≠ none) (key : String) :
    ∃ values, arrayElements json key = some values := by
  cases json with
  | null => exact ⟨_, rfl⟩
  | object members => exact ⟨_, rfl⟩
  | _ => exact absurd rfl hField

/-- A body of `api_settings_set` has to be an object or null; what is in its members only
decides between "success" and "error". -/
theorem completed_apiSettingsSet_iff {req : Request} (hServes : Serves con w) :
    Completed (Admin.apiSettingsSet pl req w) ↔
      ∃ json, pl.parse req.body = some json ∧ json.field "tovars" ≠ none := by
  constructor
  · rw [Admin.apiSettingsSet, completed_bind_of_ok (jsonHeader_run w), completed_orThrow_iff]
    rintro ⟨json, hParse, hRest⟩
    obtain ⟨tovars, hTovars, -⟩ := completed_orThrow_iff.mp hRest
    obtain ⟨value, hValue, -⟩ := Option.bind_eq_some_iff.mp hTovars
    exact ⟨json, hParse, by rw [hValue]; exact Option.some_ne_none value⟩
  · rintro ⟨json, hParse, hField⟩
    obtain ⟨tovars, hTovars⟩ := exists_arrayElements hField "tovars"
    obtain ⟨tanks, hTanks⟩ := exists_arrayElements hField "tanks"
    obtain ⟨trks, hTrks⟩ := exists_arrayElements hField "trks"
    cases hForm : setForm json with
    | some form =>
        obtain ⟨next, hRun⟩ := (form.sends_store pl con).returns (w := w.jsonReply) hServes.con_eq
        rw [apiSettingsSet_of_form hParse hForm, completed_bind_of_ok hRun]
        exact completed_replyStatus _ _
    | none =>
        -- an element is not read, and the answer is "error"
        have hUnread : (⟨tovars.map jsonToTovar, tanks.map jsonToTank, trks.map jsonToTrk⟩ :
            SettingsForm).unread := by
          by_contra hRead
          have hPosted : postedForm json =
              some ⟨tovars.map jsonToTovar, tanks.map jsonToTank, trks.map jsonToTrk⟩ := by
            simp [postedForm, hTovars, hTanks, hTrks]
          rw [setForm_eq_some_iff.mpr ⟨hPosted, hRead⟩] at hForm
          cases hForm
        rw [Admin.apiSettingsSet, completed_bind_of_ok (jsonHeader_run w), hParse,
          completed_bind_of_ok (orThrow_some_run json _), hTovars,
          completed_bind_of_ok (orThrow_some_run tovars _), ite_run]
        split_ifs with hTovar
        · exact completed_replyStatus _ _
        rw [hTanks, completed_bind_of_ok (orThrow_some_run tanks _), ite_run]
        split_ifs with hTank
        · exact completed_replyStatus _ _
        rw [hTrks, completed_bind_of_ok (orThrow_some_run trks _), ite_run,
          if_pos ((hUnread.resolve_left hTovar).resolve_left hTank)]
        exact completed_replyStatus _ _

/-- A body of `api_settings_delete` only has to be JSON. -/
theorem completed_apiSettingsDelete_iff {req : Request} (hServes : Serves con w) :
    Completed (Admin.apiSettingsDelete pl req w) ↔ pl.parse req.body ≠ none := by
  cases hParse : pl.parse req.body with
  | none =>
      rw [Admin.apiSettingsDelete, completed_bind_of_ok (jsonHeader_run w), hParse]
      exact iff_of_false (not_completed_of_error (orThrow_none_run _)) fun hNe => hNe rfl
  | some json =>
      refine iff_of_true ?_ (Option.some_ne_none json)
      cases hForm : eraseForm json with
      | none =>
          rw [Admin.apiSettingsDelete, completed_bind_of_ok (jsonHeader_run w), hParse,
            completed_bind_of_ok (orThrow_some_run json _), Option.map_eq_none_iff.mp hForm]
          exact completed_replyStatus _ _
      | some form =>
          obtain ⟨next, hRun⟩ := (form.sends_erase pl con).returns (w := w.jsonReply) hServes.con_eq
          rw [apiSettingsDelete_of_form hParse hForm, completed_bind_of_ok hRun]
          exact completed_replyStatus _ _

/-- The value of `api_trk_save` is a string, so the first `operator[]` throws. -/
theorem not_completed_apiTrkSave (req : Request) : ¬ Completed (Admin.apiTrkSave pl req w) := by
  rw [Admin.apiTrkSave, completed_bind_of_ok (jsonHeader_run w), completed_orThrow_iff]
  rintro ⟨json, hJson, hRest⟩
  obtain ⟨form, hForm, -⟩ := completed_orThrow_iff.mp hRest
  obtain ⟨screen, hScreen, -⟩ := Option.bind_eq_some_iff.mp hForm
  -- where the conversion does not throw, it gives a string
  obtain ⟨text, rfl⟩ : ∃ text, json = .string text := by
    unfold convertLoaded at hJson
    split at hJson
    · cases hJson
    · cases hJson
    · cases hJson
    · exact ⟨_, (Option.some.inj hJson).symm⟩
    · exact ⟨_, (Option.some.inj hJson).symm⟩
  cases hScreen

/-- Each page of the administrator ends its reply exactly under its condition. -/
theorem completed_adminCall_iff (hJson : WritesJson pl) (hServes : Serves con w)
    (hConsistent : Consistent (w.tables con)) (req : Request) (func : ClientCall) :
    Completed (Admin.call pl req func w) ↔
      AdminCompletes pl (w.station pl) (w.tables con) req.body func := by
  cases func with
  | mainTrk => exact (completed_mainTrk_iff hJson hServes hConsistent).1
  | mainSettings => exact iff_of_true ⟨_, rfl, rfl⟩ trivial
  | mainSettingsConfig => exact iff_of_true ⟨_, rfl, rfl⟩ trivial
  | oldMainSettingsConfig => exact completed_oldMainSettingsConfig_iff hJson hServes hConsistent
  | apiTrkSave => exact iff_of_false (not_completed_apiTrkSave req) id
  | apiOut => exact iff_of_true (completed_sendAway w) trivial
  | apiOutshift => exact iff_of_true (completed_endShift pl hServes) trivial
  | apiSettingsGet => exact completed_apiSettingsGet_iff hJson hServes
  | apiSettingsSet => exact completed_apiSettingsSet_iff hServes
  | apiSettingsDelete => exact completed_apiSettingsDelete_iff hServes
  | apiSettingsTanksGet => exact iff_of_true (completed_apiSettingsTanksGet hJson hServes) trivial
  | apiSettingsTovarsGet => exact completed_apiSettingsTovarsGet_iff hJson hServes
  | apiSettingsTrksGet => exact completed_apiSettingsTrksGet_iff hJson hServes
  | apiSettingsKasaGet => exact iff_of_true ⟨_, rfl, rfl⟩ trivial

/-- And so does each page of the user. -/
theorem completed_userCall_iff (hJson : WritesJson pl) (hServes : Serves con w)
    (hConsistent : Consistent (w.tables con)) (func : ClientCall) :
    Completed (User.call pl func w) ↔ UserCompletes (w.station pl) (w.tables con) func := by
  cases func with
  | mainTrk => exact (completed_mainTrk_iff hJson hServes hConsistent).2
  | mainSettings => exact iff_of_true ⟨_, rfl, rfl⟩ trivial
  | apiTrkSave => exact iff_of_true ⟨_, rfl, rfl⟩ trivial
  | apiOutshift => exact iff_of_true (completed_endShift pl hServes) trivial
  | _ => exact iff_of_true (completed_sendAway w) trivial

end Pages

/-! ## Requests -/

/-- The condition on a request: its cookie is read as JSON, and the page for the role that
the cookie gives ends its reply. -/
def RequestCompletes (pl : Platform) (con : Connection) (req : Request) (func : ClientCall)
    (w : World) : Prop :=
  cookieRole pl req w ≠ none ∧
    (cookieRole pl req w = some 1 →
      AdminCompletes pl (w.station pl) (w.tables con) req.body func) ∧
    (cookieRole pl req w = some 0 → UserCompletes (w.station pl) (w.tables con) func)

section Requests

variable {pl : Platform} {con : Connection} {w : World}

/-- A check of a token leaves the database as it is. -/
theorem onlyRead_afterVerify (hServes : Serves con w) (bare : Bytes) :
    OnlyRead con w (afterVerify pl bare w) where
  serves := by
    refine ⟨?_, hServes.schema, fun executed hMem => hServes.sql executed ?_⟩
    · have hDb : (afterVerify pl bare w).azsDb = w.azsDb := azsDb_afterSecret pl w
      rw [hDb]
      exact hServes.con_eq
    · have hSql : (afterVerify pl bare w).env.sql = w.env.sql := sql_afterSecret pl w
      rw [hSql] at hMem
      exact hMem
  mysql := mysql_afterSecret pl w
  azsDb := azsDb_afterSecret pl w
  response := response_afterSecret pl w

/-- The cookie check throws without a role; with one it leaves the database as it is. -/
theorem checkCoockie_of_role (hServes : Serves con w) (req : Request) :
    (cookieRole pl req w = none ∧ checkCoockie pl req w = .error .stdException w) ∨
      ∃ role next, cookieRole pl req w = some role ∧ checkCoockie pl req w = .ok role next ∧
        OnlyRead con w next := by
  rcases checkCoockie_role_cases pl req w with
    ⟨hError, hRole⟩ | ⟨hRun, hRole⟩ | ⟨token, bare, payload, -, hRun, hRole⟩
  · exact Or.inl ⟨hRole, hError⟩
  · exact Or.inr ⟨-1, w, hRole, hRun, hServes.onlyRead_refl⟩
  · exact Or.inr ⟨_, _, hRole, hRun, onlyRead_afterVerify hServes bare⟩

/-- Over a consistent database a request behind a session is answered exactly under its
condition. -/
theorem request_completed_iff (pl : Platform) (con : Connection) (cookie body : Bytes)
    (func : ClientCall) (w : World) (hIsconn : w.azsDb.isconn = true) (hServes : Serves con w)
    (hConsistent : Consistent (w.tables con)) (hJson : WritesJson pl) :
    Completed (authVerefy pl ⟨(Route.client func).url, cookie, body⟩ w) ↔
      RequestCompletes pl con ⟨(Route.client func).url, cookie, body⟩ func w := by
  have hSession : authVerefy pl ⟨(Route.client func).url, cookie, body⟩ w =
      session pl ⟨(Route.client func).url, cookie, body⟩ w := by
    rw [authVerefy, bind_of_ok (verifyConnection_run_of_true hIsconn), if_pos rfl]
  rw [hSession, session]
  unfold RequestCompletes
  rcases checkCoockie_of_role hServes ⟨(Route.client func).url, cookie, body⟩ with
    ⟨hRole, hError⟩ | ⟨role, next, hRole, hRun, hRead⟩
  · rw [hRole]
    exact iff_of_false (not_completed_of_error hError) fun hCond => hCond.1 rfl
  · rw [completed_bind_of_ok hRun, hRole]
    have hTables : Consistent (next.tables con) := by
      rw [hRead.tables_eq]
      exact hConsistent
    have hAdmin : Admin.controller pl ⟨(Route.client func).url, cookie, body⟩ =
        Admin.call pl ⟨(Route.client func).url, cookie, body⟩ func := by
      rw [Admin.controller, findFunc_url]
    have hUser : User.controller pl ⟨(Route.client func).url, cookie, body⟩ =
        User.call pl func := by
      rw [User.controller, findFunc_url]
    have hAdminCall := completed_adminCall_iff hJson hRead.serves hTables
      ⟨(Route.client func).url, cookie, body⟩ func
    have hUserCall := completed_userCall_iff hJson hRead.serves hTables func
    rw [hRead.tables_eq, hRead.station_eq] at hAdminCall hUserCall
    -- the role 1 goes to the administrator's pages, 0 to the user's, any other one away
    by_cases hOne : role = 1
    · subst hOne
      rw [if_pos rfl, hAdmin, hAdminCall]
      exact ⟨fun hCond => ⟨Option.some_ne_none _, fun _ => hCond, fun hZero => (by cases hZero)⟩,
        fun hCond => hCond.2.1 rfl⟩
    · rw [if_neg hOne]
      by_cases hZero : role = 0
      · subst hZero
        rw [if_pos rfl, hUser, hUserCall]
        exact ⟨fun hCond => ⟨Option.some_ne_none _, fun hOne => (by cases hOne), fun _ => hCond⟩,
          fun hCond => hCond.2.2 rfl⟩
      · rw [if_neg hZero]
        refine iff_of_true (completed_sendAway next) ⟨Option.some_ne_none _, ?_, ?_⟩
        · exact fun hSame => absurd (Option.some.inj hSame) hOne
        · exact fun hSame => absurd (Option.some.inj hSame) hZero

end Requests

/-! ## Two requests -/

/-- A quoted value, which RFC 6265 allows: `ParseCookie` quotes it once more, and the text is
no JSON. -/
def quotedCookie : Bytes := ascii "a=\"b\""

/-- The client that sends it gets no answer. -/
theorem quoted_cookie_unanswered :
    (stationWorld onePump).azsDb.isconn = true ∧ Serves ⟨{}, true⟩ (stationWorld onePump) ∧
      Consistent ((stationWorld onePump).tables ⟨{}, true⟩) ∧
      ¬ Completed (authVerefy .plain ⟨(Route.client .apiOut).url, quotedCookie, []⟩
        (stationWorld onePump)) := by
  have hConsistent : Consistent ((stationWorld onePump).tables ⟨{}, true⟩) := by
    show Consistent onePump
    decide
  refine ⟨rfl, serves_stationWorld onePump, hConsistent, ?_⟩
  have hCookie : Crow.load (parseCookie quotedCookie) = none := by decide +kernel
  have hRole : cookieRole .plain ⟨(Route.client .apiOut).url, quotedCookie, []⟩
      (stationWorld onePump) = none := by
    rw [cookieRole, hCookie]
    rfl
  rcases checkCoockie_of_role (serves_stationWorld onePump)
    ⟨(Route.client .apiOut).url, quotedCookie, []⟩ with ⟨-, hError⟩ | ⟨role, next, hSome, -⟩
  · rw [authVerefy, bind_of_ok (verifyConnection_run_of_true rfl), if_pos rfl]
    exact not_completed_of_error hError
  · rw [hRole] at hSome
    cases hSome

/-- A platform that writes JSON values which Crow reads, and reads one body. -/
def writingPlatform : Platform :=
  { Platform.plain.exchanging [postedPump] with
    dump := fun value =>
      if value.Dumpable then
        some (if (Crow.load value.plainText).isSome = true then value.plainText else ascii "null")
      else none }

theorem writesJson_writingPlatform : WritesJson writingPlatform where
  dumps value := by
    show (if value.Dumpable then _ else _ : Option Bytes) ≠ none ↔ _
    by_cases hDump : value.Dumpable
    · rw [if_pos hDump]
      exact iff_of_true (Option.some_ne_none _) hDump
    · rw [if_neg hDump]
      exact iff_of_false (fun hNe => hNe rfl) hDump
  reloads value text _ hText := by
    have hSome : (if value.Dumpable then
        some (if (Crow.load value.plainText).isSome = true then value.plainText else ascii "null")
      else none) = some text := hText
    split_ifs at hSome with hDump hLoad
    · obtain rfl := Option.some.inj hSome
      exact Option.isSome_iff_ne_none.mp hLoad
    · obtain rfl := Option.some.inj hSome
      have hNull : (Crow.load (ascii "null")).isSome = true := by decide +kernel
      exact Option.isSome_iff_ne_none.mp hNull

/-- The server behind a login of the first administrator, with the secret of this login. -/
def guardedWorld : World :=
  { stationWorld onePump with ld := { data := { secretjwt := ascii "secret" } } }

/-- A product, a tank and a pump, posted with the session of the administrator. -/
def guardedPost : Request :=
  ⟨(Route.client .apiSettingsSet).url, ascii "refresh_token=" ++
    sessionToken writingPlatform (ascii "secret") .epoch firstAdminId true, postedPump.plainText⟩

/-- He gets his answer. -/
theorem guarded_post_answered : Completed (authVerefy writingPlatform guardedPost guardedWorld) := by
  have hRole : cookieRole writingPlatform ⟨(Route.client .apiSettingsSet).url, guardedPost.cookie,
      guardedPost.body⟩ guardedWorld = some 1 := by decide +kernel
  have hServes : Serves ⟨{}, true⟩ guardedWorld := ⟨rfl, rfl, fun _ hMem => by cases hMem⟩
  refine (request_completed_iff writingPlatform ⟨{}, true⟩ guardedPost.cookie guardedPost.body
    .apiSettingsSet guardedWorld rfl hServes ?_ writesJson_writingPlatform).mpr
    ⟨?_, fun _ => ?_, fun hUser => ?_⟩
  · show Consistent onePump
    decide
  · rw [hRole]
    exact Option.some_ne_none _
  · exact ⟨postedPump, Platform.plain.parse_exchanging postedPump, Option.some_ne_none _⟩
  · -- the role is 1
    cases hRole.symm.trans hUser

end Server
end AzsServer
