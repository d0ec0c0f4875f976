import AzsServer.Core.TimeOrder
import AzsServer.Server.ShiftBook

/-!
# The history of the shifts

What follows from the operations on the book over a whole run.  No row of a shift is ever
lost or renumbered, and a closed shift stays closed with its operator.  While local time
does not go back, the shifts of every station follow one another in time, although their
times are texts that nobody compares.
-/

namespace AzsServer
namespace Server

open Core Library
open Local (generateSecretKey)
open Mysql (Smena)
open Mysql.Ledger

/-! ## Rows that stay -/

/-- The row of a shift at a later time: the number, the station, the start and the two
constant columns are the same, the status is the same or 0, and a closed shift has the same
operator. -/
structure ShiftStays (shift later : Smena) : Prop where
  nn : later.nn = shift.nn
  idAzs : later.idAzs = shift.idAzs
  smStart : later.smStart = shift.smStart
  idPpo : later.idPpo = shift.idPpo
  znum : later.znum = shift.znum
  status : later.status = shift.status ∨ later.status = 0
  operator : shift.status = 0 → later.idOperator = shift.idOperator

theorem ShiftStays.refl (shift : Smena) : ShiftStays shift shift :=
  ⟨rfl, rfl, rfl, rfl, rfl, Or.inl rfl, fun _ => rfl⟩

theorem ShiftStays.closed {shift later : Smena} (hStays : ShiftStays shift later)
    (hClosed : shift.status = 0) : later.status = 0 :=
  hStays.status.elim (fun hSame => hSame.trans hClosed) id

theorem ShiftStays.trans (shift later last : Smena) (hFirst : ShiftStays shift later)
    (hSecond : ShiftStays later last) : ShiftStays shift last where
  nn := hSecond.nn.trans hFirst.nn
  idAzs := hSecond.idAzs.trans hFirst.idAzs
  smStart := hSecond.smStart.trans hFirst.smStart
  idPpo := hSecond.idPpo.trans hFirst.idPpo
  znum := hSecond.znum.trans hFirst.znum
  status := hSecond.status.elim (fun hSame => hSame ▸ hFirst.status) Or.inr
  operator hClosed :=
    (hSecond.operator (hFirst.closed hClosed)).trans (hFirst.operator hClosed)

/-- The shifts of every database are still there. -/
def ShiftRowsKept (s next : Process) : Prop :=
  ∀ place, RowTable.Continues ShiftStays (s.world.mysql place).smena (next.world.mysql place).smena

section Rows

variable {station : Int} {now : Bytes} {t after : RowTable Smena}

theorem ShiftOp.continues (hOp : ShiftOp station now t after) :
    RowTable.Continues ShiftStays t after := by
  cases hOp with
  | opened user hNumber => exact RowTable.continues_insert .refl t _
  | @taken init last user hRows hOpen =>
      refine RowTable.continues_updateId .refl fun row hMem hKey => ?_
      -- the row under the key is the last one of the station, which is open
      have hLast : last ∈ t.rowsWhere (ofStation station) := by simp [hRows]
      obtain rfl : row = last := RowTable.eq_of_key_eq hMem (RowTable.mem_rowsWhere.mp hLast).1 hKey
      exact ⟨rfl, rfl, rfl, rfl, rfl, Or.inl rfl, fun hClosed => absurd hClosed hOpen⟩
  | closed hRows =>
      refine RowTable.continues_updateId .refl fun row hMem hKey => ?_
      exact ⟨rfl, rfl, rfl, rfl, rfl, Or.inr rfl, fun _ => rfl⟩

theorem continues_of_shiftOps (hOps : ShiftOps station now t after) :
    RowTable.Continues ShiftStays t after := by
  induction hOps with
  | refl => exact .refl .refl t
  | tail _ hOp ih => exact ih.trans ShiftStays.trans hOp.continues

end Rows

/-- What is known of the shifts of all databases after an event, whether they belong to the
connected one or not. -/
theorem RefinesBook.induct {pl : Platform} {s next : Process} {e : Event}
    (hRefines : RefinesBook pl s e next) (rel : RowTable Smena → RowTable Smena → Prop)
    (hSame : ∀ t, rel t t)
    (hOps : ∀ t after, ShiftOps (s.world.station pl) (timetostr pl.zone (e.time s.world)) t after →
      rel t after) (place : Address) :
    rel (s.world.mysql place).smena (next.world.mysql place).smena := by
  by_cases hPlace : ∃ con, s.world.azsDb.con = some con ∧ place = address con.info
  · obtain ⟨con, hCon, rfl⟩ := hPlace
    exact hOps _ _ (hRefines.own con hCon)
  · have hOther : ∀ con, s.world.azsDb.con = some con → place ≠ address con.info :=
      fun con hCon hSamePlace => hPlace ⟨con, hCon, hSamePlace⟩
    rw [hRefines.others place hOther]
    exact hSame _

/-- The shifts of a station in a table. -/
def shiftsIn (station : Int) (t : RowTable Smena) : List Smena :=
  (t.rowsWhere (ofStation station)).map (·.2)

/-- The shifts of the station follow one another, and all of them have ended or are open
now. -/
abbrev InSequence (now : Bytes) (shifts : List Smena) : Prop :=
  FollowOneAnother Smena.smStart Smena.smEnd now shifts

/-- Local time does not go back over an event. -/
def ClockForward (pl : Platform) (s : Process) (e : Event) : Prop :=
  pl.zone.Forward (s.world.env.now.ns / 10 ^ 9 : Nat) ((e.time s.world).ns / 10 ^ 9 : Nat)

instance (pl : Platform) (s : Process) : DecidablePred (ClockForward pl s) := fun _ =>
  inferInstanceAs (Decidable (_ ≤ (_ : Int)))

section Times

variable {station other : Int} {now : Bytes} {t after : RowTable Smena}

/-- An operation appends a shift that starts and ends now, or it changes the last shift, whose
end becomes the present time or stays; the other stations see nothing. -/
theorem ShiftOp.shiftsIn (hOp : ShiftOp station now t after) (hKeys : ∀ row ∈ t.rows, 0 < row.1)
    (hSequence : InSequence now (shiftsIn other t)) : InSequence now (shiftsIn other after) := by
  have hTable : PositiveKeys { smena := t } := hKeys
  by_cases hNe : other ≠ station
  · have hSame : Server.shiftsIn other after = Server.shiftsIn other t := by
      cases hOp with
      | opened user hNumber =>
          exact (ledgerStep_insert hTable station _ now user).shiftsOf_other hNe
      | taken user hRows hOpen =>
          exact (ledgerStep_updateId_last (f := ({ · with idOperator := user })) hTable hRows
            fun _ => rfl).shiftsOf_other hNe
      | closed hRows =>
          exact (ledgerStep_updateId_last (f := closing now) hTable hRows
            fun _ => rfl).shiftsOf_other hNe
    rw [hSame]
    exact hSequence
  obtain rfl : other = station := not_not.mp hNe
  cases hOp with
  | @opened nn user hNumber =>
      have hOwn : Server.shiftsIn other (t.insert (newShift nn other now user)) =
          Server.shiftsIn other t ++ [newShift nn other now user] :=
        (ledgerStep_insert hTable other nn now user).own
      rw [hOwn]
      exact hSequence.concat rfl rfl
  | @taken init last user hRows hOpen =>
      have hOwn : Server.shiftsIn other (t.updateId last.1 ({ · with idOperator := user })) =
          (Server.shiftsIn other t).modifyLast ({ · with idOperator := user }) :=
        (ledgerStep_updateId_last (f := ({ · with idOperator := user })) hTable hRows
          fun _ => rfl).own
      rw [hOwn]
      exact hSequence.modifyLast (fun _ => rfl) fun _ => Or.inl rfl
  | @closed init last hRows =>
      have hOwn : Server.shiftsIn other (t.updateId last.1 (closing now)) =
          (Server.shiftsIn other t).modifyLast (closing now) :=
        (ledgerStep_updateId_last (f := closing now) hTable hRows fun _ => rfl).own
      rw [hOwn]
      exact hSequence.modifyLast (fun _ => rfl) fun _ => Or.inr rfl

theorem inSequence_of_shiftOps (hOps : ShiftOps station now t after)
    (hKeys : ∀ row ∈ t.rows, 0 < row.1) (hSequence : InSequence now (shiftsIn other t)) :
    InSequence now (shiftsIn other after) := by
  have hBoth : (∀ row ∈ after.rows, 0 < row.1) ∧ InSequence now (shiftsIn other after) := by
    induction hOps with
    | refl => exact ⟨hKeys, hSequence⟩
    | tail _ hOp ih => exact ⟨hOp.keys ih.1, hOp.shiftsIn ih.1 ih.2⟩
  exact hBoth.2

end Times

/-- The keys are positive and the shifts of every station in every database follow one another
up to the time of the state. -/
structure BooksInSequence (pl : Platform) (w : World) : Prop where
  keys : ∀ place, PositiveKeys (w.mysql place)
  sequence : ∀ place station,
    InSequence (timetostr pl.zone w.env.now) (shiftsOf station (w.mysql place))

theorem BooksInSequence.step {pl : Platform} {s next : Process} {e : Event}
    (hBooks : BooksInSequence pl s.world) (hClock : ClockForward pl s e)
    (hStep : s.step pl e = some next) : BooksInSequence pl next.world := by
  have hRefines := refinesBook_of_step hBooks.keys hStep
  refine ⟨hRefines.keys, fun place station => ?_⟩
  rw [hRefines.time]
  have hLater : InSequence (timetostr pl.zone (e.time s.world))
      (shiftsIn station (s.world.mysql place).smena) :=
    (hBooks.sequence place station).mono (timetostr_le hClock)
  have hRel := hRefines.induct
    (fun t after => (∀ row ∈ t.rows, 0 < row.1) →
      InSequence (timetostr pl.zone (e.time s.world)) (shiftsIn station t) →
        InSequence (timetostr pl.zone (e.time s.world)) (shiftsIn station after))
    (fun _ _ hSequence => hSequence)
    (fun _ _ hOps hKeys hSequence => inSequence_of_shiftOps hOps hKeys hSequence) place
  exact hRel (hBooks.keys place) hLater

/-- The same run, in which user 7 logs in, ends the shift an hour later, and logs in again
after another hour. -/
def shiftsOfMoves : List Event :=
  moves ++ [posted .auth [] clerkForm 2,
    .request (.client .apiOutshift)
      (ascii "refresh_token=" ++
        sessionToken movingPlatform (generateSecretKey 15 fun _ => 2) .epoch 7 false)
      [] { now := ⟨3600 * 10 ^ 9, by decide⟩ },
    .request .auth [] clerkForm.plainText { now := ⟨7200 * 10 ^ 9, by decide⟩ }]

end Server
end AzsServer
