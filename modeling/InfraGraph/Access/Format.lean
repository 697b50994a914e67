import InfraGraph.Access.Grant
import InfraGraph.Decode.Fields
import InfraGraph.Json.Format

/-!
# Format — grants as JSON

* `Grant.toJson` — service, level and patterns of a grant;
* `Grant.ofView` — a grant from a tree of this form.
-/

namespace InfraGraph

open Decode Json

namespace Service

def toJson : Service → Json
  | aws s => .obj [("aws", .str s.text)]
  | azure s => .obj [("azure", .str s.text)]

end Service

namespace Grant

def toJson (g : Grant) : Json :=
  .obj [("kind", g.service.toJson), ("level", .str g.level.text),
    ("patterns", .arr (g.patterns.toList.map .str))]

end Grant

namespace AccessLevel

def ofView : View → Decoded AccessLevel := View.name (named AccessLevel.text AccessLevel.all)

end AccessLevel

namespace Service

def ofView : View → Decoded Service :=
  View.alternative
    [("aws", fun v => aws <$> View.name (named AwsService.text AwsService.all) v),
      ("azure", fun v => azure <$> View.name (named AzureService.text AzureService.all) v)]

end Service

namespace Grant

def ofView : View → Decoded Grant :=
  record "Permission" ((fun service level patterns => ⟨service, level, .ofList patterns⟩)
    <$> .required "kind" Service.ofView
    <*> .required "level" AccessLevel.ofView
    <*> .required "patterns" (list View.text))

end Grant

end InfraGraph
