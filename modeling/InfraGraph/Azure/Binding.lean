import InfraGraph.Generation.Schedule
import InfraGraph.Json.Printer
import InfraGraph.Resource.Basic
import InfraGraph.Schema.Basic

/-!
# Binding — documents that tie a trigger to an artifact

A binding document stands in a directory of its own next to the packaged artifact and refers back
to it.

* `Azure.Binding.document` — the text of a document;
* `Azure.Binding.place`, `Azure.Binding.file` — where it stands, and the resource that writes it;
* `Azure.TimerBinding.generateFor` — the binding file of a timer.
-/

namespace InfraGraph
namespace Azure
namespace Binding

def kind : String := "local_file"

def document (l : Lambda) (bindings : List Json) : String :=
  Json.pretty (.obj
    [("bindings", .arr bindings), ("entryPoint", .str l.handler),
      ("scriptFile", .str ("../" ++ l.artifactName))])

def place (l : Lambda) (function : String) : String :=
  l.besideArtifact (function ++ "/function.json")

def file (identifier content filename : String) : Resource :=
  .ofFields kind identifier [("content", .text content), ("filename", .text filename)]

end Binding

/-! ## Timers -/

namespace TimerBinding

def place (l : Lambda) (t : Timer) : String := Binding.place l t.fqId

/-- Binding of the timer, with members by key. -/
def trigger (t : Timer) : Json :=
  .obj [("direction", .str "in"), ("name", .str "timer"), ("schedule", .str t.cron),
    ("type", .str "timerTrigger")]

def document (l : Lambda) (t : Timer) : String := Binding.document l [trigger t]

def file (l : Lambda) (t : Timer) : Resource :=
  Binding.file (Name.identifier ["timer_binding", t.fqId]) (document l t) (place l t)

def generateFor (l : Lambda) (t : Timer) : Generated :=
  let file := file l t
  ⟨.timer file.address, [file]⟩

end TimerBinding

end Azure
end InfraGraph
