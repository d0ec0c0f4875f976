import AzsServer.Mysql.TovarText
import AzsServer.Server.Calls
import AzsServer.Server.Storing

/-!
# The names that `set_Tovar` pastes into its statement

`set_Tovar` puts the four names of a product between double quotes as they are.  MySQL reads
the statement as it is meant exactly if no name contains a quote and a backslash stands
only in front of `%` or `_`, where MySQL keeps it.
-/

namespace AzsServer
namespace Server

open Core Library Library.MysqlText Mysql

/-- The statement that is meant, with the price that it assigns. -/
def Tovar.assigned (tovar : Tovar) (price : Rat) : TovarUpdate where
  idTovar := tovar.idTovar
  price := price
  name := tovar.name
  nameP := tovar.nameP
  namePF := tovar.namePF
  namePV := tovar.namePV
  color := getRgb tovar.color.r tovar.color.g tovar.color.b
  whereId := tovar.idTovar

/-- Every name stands for itself between double quotes. -/
def Tovar.selfRead (tovar : Tovar) : Bool :=
  MysqlText.selfRead tovar.name && MysqlText.selfRead tovar.nameP &&
    MysqlText.selfRead tovar.namePF && MysqlText.selfRead tovar.namePV

section Names

variable {tovar : Tovar} {text : Bytes}

/-- What MySQL reads in the statement of `set_Tovar`. -/
theorem ofText_update_iff {price : Rat} :
    TovarUpdate.ofText tovar.update.sql = some (tovar.assigned price) ↔
      fixedValue 2 tovar.price = price ∧ tovar.selfRead = true := by
  rw [Tovar.update, Tovar.assigned, ofText_setTovar_iff]
  simp only [Tovar.selfRead, Bool.and_eq_true, and_assoc]

end Names

/-- `set_Tovar` sends one text.  MySQL reads it as the one update of the product that is meant,
with the price rounded to two decimals, exactly if every name stands for itself between
quotes; it assigns the price itself exactly if this has no more decimals. -/
theorem tovar_text_read_iff (pl : Platform) (tovar : Tovar) (w : World) :
    (∀ line ∈ (endState (setTovar pl tovar) w).linesSince w,
        ∃ executed, line = .update tovar.update executed) ∧
      (TovarUpdate.ofText tovar.update.sql =
          some (tovar.assigned (fixedValue 2 tovar.price)) ↔ tovar.selfRead = true) ∧
      (TovarUpdate.ofText tovar.update.sql = some (tovar.assigned tovar.price) ↔
        HasDecimals 2 tovar.price ∧ tovar.selfRead = true) := by
  have hCalls : Calls pl (fun line => ∃ executed, line = .update tovar.update executed) False
      (setTovar pl tovar) := .guarded (.update fun executed => ⟨executed, rfl⟩) _
  have hFramed := hCalls.framed.inv_endState (Framed.refl _ w)
  refine ⟨fun line hMem => hFramed.log.mem_linesSince hMem, ?_, ?_⟩
  · rw [ofText_update_iff]
    exact and_iff_right rfl
  · rw [ofText_update_iff, fixedValue_eq_self_iff]

/-- A product whose name goes on with the statement. -/
def quotedTovar : Tovar where
  idTovar := 1
  price := 52
  name := ascii
    "A\", name_p=\"\", name_p_f=\"\", name_p_v=\"\", color=0 WHERE id_tovar=2;#"

/-- The statement of the product 1 changes the product 2 instead, and its id with it. -/
theorem other_product_updated :
    TovarUpdate.ofText quotedTovar.update.sql =
        some ⟨1, 52, ascii "A", [], [], [], 0, 2⟩ ∧
      ¬ ∃ price, TovarUpdate.ofText quotedTovar.update.sql = some (quotedTovar.assigned price) := by
  constructor
  · decide +kernel
  · rintro ⟨price, hRead⟩
    exact absurd (ofText_update_iff.mp hRead).2 (by decide)

end Server
end AzsServer
