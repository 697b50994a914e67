import InfraGraph.Calendar
import InfraGraph.Generation.Output
import InfraGraph.Json.Printer
import InfraGraph.Resource.Encode
import InfraGraph.Resource.Fingerprint

/-!
# Graph — the stored resource graph

* `Graph` — resources and outputs of a pass, with where they come from;
* `Graph.ofResources` — the graph that is stored at a given time;
* `Graph.resourcesOf` — what is stored, if anything;
* `Graph.toJson`, `Graph.text` — its JSON form, and the text of its file.
-/

namespace InfraGraph

structure Graph where
  /-- Version of the format. -/
  format : String
  app : String
  generatedAt : String
  /-- Name and version of the program that generated the graph. -/
  generator : String
  /-- Digest of the resources. -/
  digest : String
  resources : List Resource
  manifest : Manifest

namespace Graph

def currentFormat : String := "1.0"

/-- Name and version that graphs are signed with. -/
def currentGenerator : String := "cloudgen 0.3.0"

/-- Graph of resources and outputs, generated a number of seconds after the beginning of 1970. -/
def ofResources (app : String) (resources : List Resource) (manifest : Manifest)
    (seconds : UInt64) : Graph :=
  ⟨currentFormat, app, Calendar.text seconds, currentGenerator, Resource.hashAll resources,
    resources, manifest⟩

/-- Resources of a stored graph; without one, nothing is stored. -/
def resourcesOf : Option Graph → List Resource
  | some g => g.resources
  | none => []

def toJson (g : Graph) : Json :=
  .obj [("schema", .str g.format), ("app", .str g.app), ("generated_at", .str g.generatedAt),
    ("generator", .str g.generator), ("digest", .str g.digest),
    ("resources", .arr (g.resources.map Resource.toJson)),
    ("outputs", .obj [("outputs", .obj g.manifest.outputs.entries)])]

def text (g : Graph) : String := g.toJson.pretty

end Graph
end InfraGraph
