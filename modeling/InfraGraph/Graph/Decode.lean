import InfraGraph.Graph.Basic
import InfraGraph.Resource.Decode

/-!
# Decode — graphs from the text of their file

* `Manifest.ofView`, `Graph.ofView` — read what `Graph.toJson` writes; outputs may be left out;
* `Graph.ofText` — read the text of a file.
-/

namespace InfraGraph

open Decode Json

namespace Manifest

/-- An output, up to the order of its members. -/
def output (v : View) : Decoded Json := Json.sorted <$> v.value

def ofView : View → Decoded Manifest :=
  record "Manifest" (Manifest.mk <$> .required "outputs" (map output))

end Manifest

namespace Graph

def ofView : View → Decoded Graph :=
  record "GraphFile" (Graph.mk
    <$> .required "schema" View.text
    <*> .required "app" View.text
    <*> .required "generated_at" View.text
    <*> .required "generator" View.text
    <*> .required "digest" View.text
    <*> .required "resources" (list Resource.ofView)
    <*> .withDefault "outputs" .empty Manifest.ofView)

def ofText (text : String) : Except Failure Graph := Json.decode ofView text

end Graph
end InfraGraph
