import InfraGraph.Proofs.Azure.Placement
import InfraGraph.Proofs.Json.Text

/-!
# Binding documents point back at the artifact

A document names the artifact by a way that leads up, out of the directory of its function, and on
to a name.  Taken from where the document stands, this way ends at the artifact, whatever the path
of the artifact looks like.  Main statements:

* `Azure.Binding.decode_document` — a document is read back from its text;
* `Azure.Binding.names_place` — the names of its path;
* `Azure.Binding.PointsAt`, `Azure.Binding.pointsAt_file` — where the way ends;
* `Azure.bindings_point_back` — so it is for every document that is generated.
-/

namespace InfraGraph
namespace Azure

namespace Binding

variable {l : Lambda} {bindings : List Json}

/-! ## What a document says -/

def members (l : Lambda) (bindings : List Json) : List (String × Json) :=
  [("bindings", .arr bindings), ("entryPoint", .str l.handler),
    ("scriptFile", .str ("../" ++ l.artifactName))]

/-- Bindings of strings, and of lists of these. -/
structure IsPlain (binding : Json) : Prop where
  isExact : binding.IsExact
  depth_le : binding.depth ≤ 2

/-- A document is read back from its text. -/
theorem decode_document (hplain : ∀ b ∈ bindings, IsPlain b) :
    Json.decode Json.View.value (document l bindings) = .ok (.obj (members l bindings)) := by
  have hexact : (Json.obj (members l bindings)).IsExact := by
    simpa [members] using fun b hb => (hplain b hb).isExact
  have hdepth : (Json.obj (members l bindings)).depth ≤ 4 := by
    simpa [members] using fun b hb => (hplain b hb).depth_le
  -- the depth of a document is within what a reader of texts goes down to
  refine Json.decode_pretty hexact ?_
  refine Json.Source.decodeValue_ofJson _ _ (Json.Source.hasRoom_some ?_)
  exact Nat.le_trans hdepth (by decide)

/-! ## Where it points -/

/-- The last names of a place stay when those are dropped that lead nowhere. -/
theorem names_place (parts : List String) :
    Path.names (place l (Name.identifier parts)) =
      Path.names l.artifactBase ++ [Name.identifier parts, "function.json"] := by
  have hfunction := (Name.isProper_identifier parts).not_here
  have hdocument : ¬("function.json" = "" ∨ "function.json" = ".") := by decide
  rw [Path.names, components_place (Name.slash_not_mem_identifier parts), FileTree.properNames,
    List.filter_append]
  refine congrArg (Path.names l.artifactBase ++ ·) ?_
  change FileTree.properNames _ = _
  rw [FileTree.properNames_cons, if_neg hfunction, FileTree.properNames_cons, if_neg hdocument]
  rfl

/-- A file holds a document that names a way up, out of the directory it stands in, and on to a
name; from where the document stands, this is the way to an artifact. -/
structure PointsAt (file : Resource) (filename name artifact : String) : Prop where
  filename_eq : file.fields.get? "filename" = some (.text filename)
  script_eq : ∃ content members, file.fields.get? "content" = some (.text content) ∧
    Json.decode Json.View.value content = .ok (.obj members) ∧
    Entries.get? "scriptFile" members = some (.str ("../" ++ name))
  /-- The document and its directory have names that can be taken away. -/
  two_le : 2 ≤ (Path.names filename).length
  names_eq : (Path.names filename).dropLast.dropLast ++ Path.names name = Path.names artifact
  isAbsolute_iff : Path.IsAbsolute filename ↔ Path.IsAbsolute artifact

/-- Dependencies do not change where a document points. -/
theorem PointsAt.after {file : Resource} {filename name artifact : String}
    (h : PointsAt file filename name artifact) (addresses : List String) :
    PointsAt (file.after addresses) filename name artifact :=
  ⟨h.filename_eq, h.script_eq, h.two_le, h.names_eq, h.isAbsolute_iff⟩

/-- The document of a function points at the artifact of its lambda. -/
theorem pointsAt_file (l : Lambda) (identifier : String) (parts : List String)
    (hplain : ∀ b ∈ bindings, IsPlain b) :
    PointsAt (file identifier (document l bindings) (place l (Name.identifier parts)))
      (place l (Name.identifier parts)) l.artifactName l.file := by
  constructor
  · rfl
  · exact ⟨_, _, rfl, decode_document hplain, rfl⟩
  · simp [names_place]
  · have hdropped : (Path.names (place l (Name.identifier parts))).dropLast.dropLast =
        Path.names l.artifactBase := by
      simp [names_place]
    rw [hdropped, l.names_artifact]
  · exact l.isAbsolute_besideArtifact_iff _

end Binding

/-- The bindings of a route are plain, so the document can be read off. -/
theorem HttpBinding.isPlain_bindings (r : DynamicRoute) :
    ∀ b ∈ [request r, response], Binding.IsPlain b := by
  refine List.forall_mem_cons.mpr ⟨⟨?_, ?_⟩, List.forall_mem_singleton.mpr ⟨?_, ?_⟩⟩
  · simp [request]
  · simp [request]
  · simp [response]
  · simp [response]

theorem TimerBinding.isPlain_bindings (t : Timer) : ∀ b ∈ [trigger t], Binding.IsPlain b := by
  refine List.forall_mem_singleton.mpr ⟨?_, ?_⟩
  · simp [trigger]
  · simp [trigger]

/-- Every route of a lambda that has an app, and on Azure every timer of a lambda, gets one
document, and from where it stands the way that it names leads to the artifact of the lambda. -/
theorem bindings_point_back :
    (∀ (ctx : Context) (r : DynamicRoute) (l : Lambda) (app : FunctionAppIds),
      ctx.schema.lambdas.get? r.lambda = some l → FunctionApp.ids ctx r.lambda = .ok app →
        ∃ g file filename name, HttpBinding.producer.generate ctx (.route r) = .ok g ∧
          g.resources = [file] ∧ Binding.PointsAt file filename name l.file) ∧
      ∀ (ctx : Context) (t : Timer) (l : Lambda), ctx.schema.platform = .azure →
        ctx.schema.lambdas.get? t.lambda = some l →
          ∃ g file filename name, Timers.producer.generate ctx (.timer t) = .ok g ∧
            g.resources = [file] ∧ Binding.PointsAt file filename name l.file := by
  constructor
  · intro ctx r l app hl happ
    have hpoints := Binding.pointsAt_file l
      (Name.identifier ["http_binding", HttpBinding.functionName r])
      ("http" :: r.method.text :: r.path.nameParts) (HttpBinding.isPlain_bindings r)
    exact ⟨_, _, _, _, HttpBinding.generate_eq_ok_iff.mpr ⟨l, app, hl, happ, rfl⟩, rfl,
      hpoints.after [app.address]⟩
  · intro ctx t l hazure hl
    have hpoints := Binding.pointsAt_file l (Name.identifier ["timer_binding", t.fqId])
      ["timer", t.id] (TimerBinding.isPlain_bindings t)
    exact ⟨_, _, _, _, (Timers.generate_azure_eq_ok_iff hazure).mpr ⟨l, hl, rfl⟩, rfl, hpoints⟩

end Azure

/-- Small application whose artifacts have repeated slashes, one at the root and one that ends in a
slash. -/
def Schema.depot : Schema :=
  { notes with
    lambdas := .ofList [("users", ⟨"//opt//users.jar", "Users", Lambda.defaultMemoryMb,
        Lambda.defaultTimeoutSec, Lambda.defaultRuntime, .empty, []⟩),
      ("monitoring", ⟨"jobs/./", "Monitoring", Lambda.defaultMemoryMb,
        Lambda.defaultTimeoutSec, Lambda.defaultRuntime, .empty, []⟩)] }

namespace Azure

/-- State of the small application when its apps have been made. -/
def stocked : Context := (Schedule.run [FunctionApp.producer] (.initial Schema.depot ⟨.empty⟩)).1

theorem bindings_point_back_depot :
    (∃ g file filename name,
      HttpBinding.producer.generate stocked (.route ⟨.parse "/users/\x7bid\x7d", .get, "users"⟩) =
          .ok g ∧
        g.resources = [file] ∧ Binding.PointsAt file filename name "//opt//users.jar") ∧
      ∃ g file filename name,
        Timers.producer.generate stocked (.timer ⟨"nightly", "0 0 3 * * *", "monitoring"⟩) = .ok g ∧
          g.resources = [file] ∧ Binding.PointsAt file filename name "jobs/./" := by
  have happ : (FunctionApp.ids stocked "users").isOk = true := by decide +kernel
  obtain ⟨app, happ⟩ := exists_of_isOk happ
  have hazure : stocked.schema.platform = .azure := by decide +kernel
  have hfiles : (stocked.schema.lambdas.get? "users").map Lambda.file = some "//opt//users.jar" ∧
      (stocked.schema.lambdas.get? "monitoring").map Lambda.file = some "jobs/./" := by
    decide +kernel
  obtain ⟨users, husers, hfile⟩ := Option.map_eq_some_iff.mp hfiles.1
  obtain ⟨monitoring, hmonitoring, hfile'⟩ := Option.map_eq_some_iff.mp hfiles.2
  rw [← hfile, ← hfile']
  exact ⟨bindings_point_back.1 _ _ users app husers happ,
    bindings_point_back.2 _ _ monitoring hazure hmonitoring⟩

end Azure
end InfraGraph
