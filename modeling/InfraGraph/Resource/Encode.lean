import InfraGraph.Json.Basic
import InfraGraph.Resource.Basic

/-!
# Encode — resources as JSON

A field value is an object with one member, named after the sort of the value.

* `FieldValue.toJson`, `Resource.toJson` — the JSON forms.
-/

namespace InfraGraph

namespace FieldValue

mutual

def toJson : FieldValue → Json
  | text s => .obj [("text", .str s)]
  | number n => .obj [("number", .int n.toInt)]
  | bool b => .obj [("bool", .bool b)]
  | ref r => .obj [("ref", .str r)]
  | expr e => .obj [("expr", .str e)]
  | map entries => .obj [("map", .obj (entriesToJson entries))]
  | list items => .obj [("list", .arr (itemsToJson items))]

def entriesToJson : List (String × FieldValue) → List (String × Json)
  | [] => []
  | e :: rest => (e.1, toJson e.2) :: entriesToJson rest

def itemsToJson : List FieldValue → List Json
  | [] => []
  | v :: rest => toJson v :: itemsToJson rest

end

end FieldValue

namespace Resource

def toJson (r : Resource) : Json :=
  .obj [("kind", .str r.kind), ("name", .str r.name),
    ("fields", .obj (FieldValue.entriesToJson r.fields.entries)),
    ("depends_on", .arr (r.dependsOn.map .str))]

end Resource
end InfraGraph
