import AzsServer.Crow.SanitizeFilename
import AzsServer.Server.Routes

/-!
# The files below `azs_site/public`

The route `/public/<path>` needs no session and passes the rest of the URL on as it came.  What
Crow makes of it is a path from which no name leads up, so nothing but the files of the
directory can be asked for.
-/

namespace AzsServer
namespace Server

open Core Crow Library

/-- The directory of the route. -/
def publicDir : Bytes := ascii "azs_site/public/"

/-- The reply with a file, or the one that there is none. -/
def fileReply (files : Bytes → Option Bytes) (mimeType : Bytes → Bytes) (file : Bytes)
    (r : Response) : Response :=
  match files file with
  | none => { r with code := 404, completed := true }
  | some content =>
      { r with
        code := 200
        headers := r.headers ++ (ascii "Content-Length", natToString content.length) ::
          ((fileType mimeType file).map fun contentType =>
            (ascii "Content-Type", contentType)).toList
        body := content
        completed := true }

section Files

variable {pl : Platform} {files : Bytes → Option Bytes} {mimeType : Bytes → Bytes}

/-- What is left of the path behind the name of the directory. -/
def publicRest (path : Bytes) : Bytes :=
  sanitizeFrom (path.take 239).length false true (path.take 239)

/-- The name of the directory stays. -/
theorem sanitizeFilename_publicDir (path : Bytes) :
    sanitizeFilename (publicDir ++ path) = publicDir ++ publicRest path := by
  have hTake : (publicDir ++ path).take 255 = publicDir ++ path.take 239 := by
    rw [List.take_append]
    rfl
  have hLength : (publicDir ++ path.take 239).length = (path.take 239).length + 16 := by
    rw [List.length_append, Nat.add_comm]
    rfl
  rw [sanitizeFilename, hTake, hLength]
  rfl

theorem clean_publicRest (path : Bytes) :
    Clean true (publicRest path) ∧ (publicDir ++ publicRest path).length ≤ 255 := by
  obtain ⟨hClean, -, hLength⟩ := clean_sanitizeFilename (publicDir ++ path)
  rw [sanitizeFilename_publicDir] at hClean hLength
  exact ⟨@Clean.of_append true (ascii "azs_site/public") (publicRest path) hClean, hLength⟩

/-- Which paths are taken as they are. -/
theorem publicRest_eq_self_iff (path : Bytes) :
    publicRest path = path ↔ path.length ≤ 239 ∧ Clean true path := by
  obtain ⟨hClean, hLength⟩ := clean_publicRest path
  rw [List.length_append] at hLength
  have hDir : publicDir.length = 16 := rfl
  constructor
  · intro hSame
    rw [hSame] at hClean hLength
    exact ⟨by omega, hClean⟩
  · rintro ⟨hShort, hClean⟩
    rw [publicRest, List.take_of_length_le hShort]
    exact sanitizeFrom_of_clean le_rfl hClean (fun hTrue => by cases hTrue)

theorem serve_publicFiles (hFiles : pl.staticFile = staticFile files mimeType) (path : Bytes)
    (req : Request) (w : World) :
    serve pl (.publicFiles path) req w =
      .ok ⟨⟩ (w.mapResponse (fileReply files mimeType (publicDir ++ publicRest path))) := by
  have hPath : ascii "azs_site/" ++ (ascii "public/" ++ path) = publicDir ++ path := by
    rw [← List.append_assoc]
    rfl
  show staticFiles pl (ascii "public/" ++ path) w = _
  rw [staticFiles, hFiles, hPath, staticFile, sanitizeFilename_publicDir]
  unfold fileReply
  cases files (publicDir ++ publicRest path) with
  | none => rfl
  | some content =>
      -- the headers are added one by one
      rw [Option.map_some]
      cases fileType mimeType (publicDir ++ publicRest path) with
      | none => exact congrArg (EStateM.Result.ok PUnit.unit) (by simp [World.mapResponse])
      | some contentType =>
          exact congrArg (EStateM.Result.ok PUnit.unit) (by simp [World.mapResponse])

end Files

/-- Whatever the path, the request for a file changes nothing but the reply, and the reply is made
of a file from whose name no walk leads out of the directory.  The system is asked for the path
as it came exactly if it is short and clean. -/
theorem public_files_inside (pl : Platform) (files : Bytes → Option Bytes)
    (mimeType : Bytes → Bytes) (hFiles : pl.staticFile = staticFile files mimeType) (path : Bytes)
    (req : Request) (w : World) :
    ∃ rest, serve pl (.publicFiles path) req w =
        .ok ⟨⟩ (w.mapResponse (fileReply files mimeType (publicDir ++ rest))) ∧
      (∀ place, StaysBelow isHere isUp place (pathNames rest)) ∧
      (∀ c ∈ rest, 32 ≤ c) ∧ (publicDir ++ rest).length ≤ 255 ∧
      (rest = path ↔ path.length ≤ 239 ∧ Clean true path) := by
  obtain ⟨hClean, hLength⟩ := clean_publicRest path
  refine ⟨publicRest path, serve_publicFiles hFiles path req w, fun place => ?_, fun c hMem => ?_,
    hLength, publicRest_eq_self_iff path⟩
  · exact staysBelow_of_down place hClean.names_down
  · have hPlain := hClean.not_reserved c hMem
    by_contra hLow
    simp [isReserved, UInt8.not_le.mp hLow] at hPlain

/-- The files of a site with a single page. -/
def onePage (path : Bytes) : Option Bytes :=
  if path = ascii "azs_site/public/index.html" then some (ascii "<p>") else none

/-- Its server. -/
def onePagePlatform : Platform := { Platform.plain with staticFile := staticFile onePage id }

/-- A way up ends in the directory. -/
theorem page_not_left :
    ∃ rest, serve onePagePlatform (.publicFiles (ascii "../../index.html")) ⟨[], [], []⟩
          Process.fresh.world =
        .ok ⟨⟩ (Process.fresh.world.mapResponse (fileReply onePage id (publicDir ++ rest))) ∧
      (∀ place, StaysBelow isHere isUp place (pathNames rest)) ∧
      (∀ c ∈ rest, 32 ≤ c) ∧ (publicDir ++ rest).length ≤ 255 ∧
      (rest = ascii "../../index.html" ↔
        (ascii "../../index.html").length ≤ 239 ∧ Clean true (ascii "../../index.html")) :=
  public_files_inside onePagePlatform onePage id rfl (ascii "../../index.html") ⟨[], [], []⟩
    Process.fresh.world

end Server
end AzsServer
