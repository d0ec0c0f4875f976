import AzsServer.Server.Requests
import AzsServer.Server.SessionRoundTrip

/-!
# What ends a session

The server keeps no list of its sessions: whether it accepts a cookie depends on the secret in
memory and on the time alone.  So nothing but a restart or a regeneration of the secret ends a
session before its time; a client that logs out or ends the shift only loses its copy of the
cookie.
-/

namespace AzsServer
namespace Server

open Core Library Local

/-- The secret in memory is this one. -/
def SecretIs (secret : Bytes) (w : World) : Prop := w.ld.data.secretjwt = secret

/-- The process goes on, and no thread is about to regenerate the secret. -/
def KeepsSecret (s : Process) : Event → Prop
  | .start _ => False
  | .work _ => ∀ worker ∈ s.running, worker.pc = .regenerate →
      worker.info = s.world.azsDb.lastConnectInfo
  | _ => True

instance (s : Process) : DecidablePred (KeepsSecret s)
  | .start _ => isFalse fun hFalse => hFalse
  | .request _ _ _ _ => isTrue trivial
  | .lock _ => isTrue trivial
  | .work _ => inferInstanceAs (Decidable (∀ worker ∈ s.running, worker.pc = .regenerate →
      worker.info = s.world.azsDb.lastConnectInfo))

section Kept

variable {pl : Platform} {secret : Bytes} {w : World}

/-- A secret in memory is handed out as it is. -/
theorem afterSecret_of_secret (hSecret : SecretIs secret w) (hNe : secret ≠ []) :
    afterSecret pl w = w := by
  unfold afterSecret
  rw [if_neg]
  rw [hSecret]
  exact hNe

/-- Every request keeps the secret. -/
theorem keptByPieces_secretIs (pl : Platform) (hNe : secret ≠ []) :
    KeptByPieces pl (SecretIs secret) := by
  have hCalls : ∀ {α : Type} {allowed : Entry → Prop} {offRow : Prop} {m : Prog α},
      Calls pl allowed offRow m → Keeps (SecretIs secret) (fun _ => True) m := fun hCalls =>
    hCalls.keeps (fun v next hSecret hFramed => by rw [SecretIs, hFramed.ld]; exact hSecret)
      fun _ _ _ _ => trivial
  have hAfter : ∀ v, SecretIs secret v → SecretIs secret (afterSecret pl v) := fun v hSecret => by
    rw [afterSecret_of_secret hSecret hNe]
    exact hSecret
  refine ⟨fun hProg => hCalls hProg, fun trk => hCalls (.setTrk trk), fun userid =>
    hCalls (.takeShift userid), hCalls .smenaClose, ?_, fun v _ => hAfter v, fun info => ?_⟩
  · exact keeps_issueToken hAfter (fun _ _ _ _ hSecret => hSecret) fun _ _ hSecret => hSecret
  · refine .bind .get fun _ => .ite ?_ (.pure _)
    exact .bind (.modify fun _ hSecret => hSecret) fun _ =>
      .bind (.modify fun _ hSecret => hSecret) fun _ =>
        .bind (.modify fun _ hSecret => hSecret) fun _ => .modify fun _ hSecret => hSecret

/-- Saving the connection data changes the file, not the secret in memory. -/
theorem secretIs_afterSave (pl : Platform) (info : MysqlConnInfo) (hSecret : SecretIs secret w) :
    SecretIs secret (afterSave pl info w) := by
  unfold SecretIs afterSave Local.setMysqlConnInfo
  cases execSql pl.sqlite (w.env.sqlite.headD {}) (saveSql info w.ld.data.idLast) w.ld.tables with
  | none => exact hSecret
  | some tables => exact hSecret

/-- So do the steps of a thread that does not regenerate it. -/
theorem secretIs_work (pl : Platform) (pc : WorkerPc) (info : MysqlConnInfo) (hSecret : SecretIs secret w)
    (hKeeps : pc = .regenerate → info = w.azsDb.lastConnectInfo) :
    SecretIs secret (endState (pc.run pl info) w) := by
  have hEnds := endState_work pl pc info w
  generalize endState (pc.run pl info) w = next at hEnds ⊢
  cases hEnds with
  | member => exact hSecret
  | regenerate =>
      rw [afterRegenerate, if_neg (not_not.mpr (hKeeps rfl).symm)]
      exact hSecret
  | save => exact secretIs_afterSave pl info hSecret
  | station => exact hSecret

theorem SecretIs.step {s next : Process} {e : Event} (hSecret : SecretIs secret s.world)
    (hNe : secret ≠ []) (hKeeps : KeepsSecret s e) (hStep : s.step pl e = some next) :
    SecretIs secret next.world := by
  cases e with
  | start env => exact hKeeps.elim
  | request route cookie body env =>
      obtain ⟨v, hRun, rfl⟩ := Option.map_eq_some_iff.mp hStep
      have hReceived : SecretIs secret (s.world.received env) := hSecret
      have hEnd := ((keptByPieces_secretIs pl hNe).serve route
        ⟨route.url, cookie, body⟩).inv_endState hReceived
      rw [endState_of_goesOn hRun] at hEnd
      exact hEnd
  | lock i =>
      rw [Process.step] at hStep
      split at hStep
      · cases hStep
        exact hSecret
      · cases hStep
  | work env =>
      obtain ⟨worker, hRunning, hWork⟩ := Option.bind_eq_some_iff.mp hStep
      have hUnder : SecretIs secret (s.world.under env) := hSecret
      have hEnd := secretIs_work pl worker.pc worker.info hUnder (hKeeps worker hRunning)
      rw [Process.workStep] at hWork
      rw [endState] at hEnd
      cases hRun : worker.pc.run pl worker.info (s.world.under env) with
      | ok a v =>
          rw [hRun] at hWork hEnd
          cases hWork
          exact hEnd
      | error thrown v =>
          rw [hRun] at hWork hEnd
          cases thrown with
          | sqlException =>
              cases hWork
              exact hEnd
          | _ => cases hWork

end Kept

/-- Whatever happens in a run without a restart or a regeneration, the logout of the client
included, every cookie has the same role at the same time before and after it. -/
theorem session_outlasts_run (pl : Platform) {s final : Process} {events : List Event}
    (hNe : s.world.ld.data.secretjwt ≠ [])
    (hKeeps : StepsMeet (Process.step pl) KeepsSecret s events)
    (hRun : runSteps (Process.step pl) s events = some final) (req : Request) (env : Env) :
    cookieRole pl req (final.world.under env) = cookieRole pl req (s.world.under env) := by
  have hFinal : SecretIs s.world.ld.data.secretjwt final.world :=
    runSteps_invariant (fun t e next (hSecret : SecretIs _ t.world) hEvent hStep =>
      hSecret.step hNe hEvent hStep) rfl hKeeps hRun
  have hBefore : afterSecret pl (s.world.under env) = s.world.under env :=
    afterSecret_of_secret rfl hNe
  have hAfter : afterSecret pl (final.world.under env) = final.world.under env :=
    afterSecret_of_secret hFinal hNe
  have hSecret : (final.world.under env).ld.data.secretjwt =
      (s.world.under env).ld.data.secretjwt := hFinal
  unfold cookieRole
  rw [hBefore, hAfter, hSecret]
  rfl

/-- The first administrator ends his shift and logs out. -/
def chiefLogsOut : List Event :=
  [posted (.client .apiOutshift) chiefCookie deletion 2, posted (.client .apiOut) chiefCookie deletion 3]

/-- His cookie is still the one of an administrator. -/
theorem session_outlasts_logout :
    ∃ s final, runSteps (Process.step (guardPlatform .rejecting))
        ⟨.freshOver fun _ => chiefTables, none⟩ chiefStart = some s ∧
      runSteps (Process.step (guardPlatform .rejecting)) s chiefLogsOut = some final ∧
      cookieRole (guardPlatform .rejecting) ⟨ascii "/old/main", chiefCookie, []⟩
        (final.world.under unreachable) = some 1 := by
  have hStart : ((runSteps (Process.step (guardPlatform .rejecting))
      ⟨.freshOver fun _ => chiefTables, none⟩ chiefStart).map fun s =>
        decide (s.world.ld.data.secretjwt ≠ [] ∧
          (runSteps (Process.step (guardPlatform .rejecting)) s chiefLogsOut).isSome ∧
          cookieRole (guardPlatform .rejecting) ⟨ascii "/old/main", chiefCookie, []⟩
            (s.world.under unreachable) = some 1)) = some true := by
    decide +kernel
  obtain ⟨s, hRun, hState⟩ := Option.map_eq_some_iff.mp hStart
  obtain ⟨hNe, hSome, hRole⟩ := of_decide_eq_true hState
  obtain ⟨final, hFinal⟩ := Option.isSome_iff_exists.mp hSome
  refine ⟨s, final, hRun, hFinal, ?_⟩
  have hKeeps : StepsMeet (Process.step (guardPlatform .rejecting)) KeepsSecret s chiefLogsOut :=
    ⟨trivial, fun _ _ => ⟨trivial, fun _ _ => trivial⟩⟩
  rw [session_outlasts_run (guardPlatform .rejecting) hNe hKeeps hFinal]
  exact hRole

end Server
end AzsServer
