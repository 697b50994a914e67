import InfraGraph.Json.Basic
import InfraGraph.Schema.Basic

/-!
# Encode — schemas as JSON

The JSON form of a schema names every field, defaults included.  Absent optional values are null,
and paths have a leading slash.

* `Schema.toJson`, `Declaration.toJson` — the JSON forms.
-/

namespace InfraGraph

namespace DeclaredResource

def members : DeclaredResource → List (String × Json)
  | s3Bucket bucket => [("bucket", .str bucket)]
  | ssmParameters path => [("prefix", .str path)]
  | dynamoDbTable table => [("table", .str table)]
  | sqsQueue queue => [("queue", .str queue)]
  | cognito userPool => [("user_pool", .str userPool)]
  | secretManager pattern => [("pattern", .str pattern)]
  | azureResource id => [("id", .str id)]
  | azureStorageAccount name resourceGroup =>
      [("name", .str name), ("resource_group", .str resourceGroup)]

end DeclaredResource

namespace Declaration

def toJson (d : Declaration) : Json :=
  .obj (("kind", .str d.resource.kind.text) :: d.resource.members ++
    [("level", .str d.level.text), ("source", .optional d.source)])

end Declaration

namespace Deployment

def toJson (d : Deployment) : Json :=
  .obj [("name", .optional d.name), ("version", .str d.version)]

end Deployment

namespace DnsAlias

def toJson (d : DnsAlias) : Json :=
  .obj [("alias", .str d.host), ("zone", .str d.zone),
    ("certificate", .optional d.certificate)]

end DnsAlias

namespace Api

def toJson (a : Api) : Json :=
  .obj [("name", .str a.name), ("allow_cors", .bool a.allowCors),
    ("deployment", a.deployment.toJson),
    ("dns", match a.dns with
      | none => .null
      | some d => d.toJson)]

end Api

namespace Lambda

def toJson (l : Lambda) : Json :=
  .obj [("file", .str l.file), ("handler", .str l.handler),
    ("memory_mb", .int l.memoryMb.toNat), ("timeout_sec", .int l.timeoutSec.toNat),
    ("runtime", .str l.runtime),
    ("environment", .obj (l.environment.entries.map fun (k, v) => (k, .str v))),
    ("permissions", .arr (l.permissions.map Declaration.toJson))]

end Lambda

namespace DynamicRoute

def toJson (r : DynamicRoute) : Json :=
  .obj [("path", .str r.path.absolute), ("method", .str r.method.text), ("lambda", .str r.lambda)]

end DynamicRoute

namespace StaticRoute

def toJson (r : StaticRoute) : Json :=
  .obj [("path", .str r.path.absolute), ("file", .str r.file), ("mime", .str r.mime)]

end StaticRoute

namespace Routes

def toJson (r : Routes) : Json :=
  .obj [("dynamic", .arr (r.dynamic.map DynamicRoute.toJson)),
    ("static", .arr (r.static.map StaticRoute.toJson))]

end Routes

namespace Timer

def toJson (t : Timer) : Json :=
  .obj [("id", .str t.id), ("cron", .str t.cron), ("lambda", .str t.lambda)]

end Timer

namespace Schema

def toJson (s : Schema) : Json :=
  .obj [("version", .str s.version), ("name", .str s.name),
    ("description", .optional s.description), ("platform", .str s.platform.text),
    ("region", .str s.region), ("account", .str s.account), ("bucket", .optional s.bucket),
    ("api", match s.api with
      | none => .null
      | some a => a.toJson),
    ("lambdas", .obj (s.lambdas.entries.map fun (id, l) => (id, l.toJson))),
    ("routes", s.routes.toJson),
    ("events", .obj [("scheduled", .arr (s.timers.map Timer.toJson))]),
    ("library_permissions", .arr (s.libraryPermissions.map Declaration.toJson))]

end Schema
end InfraGraph
