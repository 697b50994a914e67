import InfraGraph.Generation.Schedule

/-!
# RestApi — the root of the HTTP API

* `Aws.RestApi.producer` — one REST API for the API of the schema;
* `Aws.RestApi.isThere`, `Aws.RestApi.ids` — its output, for the producers of everything below.
-/

namespace InfraGraph

namespace Context

/-- API of the schema, for a producer that generates for an entity only where there is one. -/
def api (ctx : Context) (producer : String) (entity : Entity) : Except GenerationError Api :=
  match ctx.schema.api with
  | some api => .ok api
  | none => .error (.unexpectedEntity producer entity.id)

end Context

namespace Aws
namespace RestApi

def name : String := "rest_api"

def kind : String := "aws_api_gateway_rest_api"

def isThere (ctx : Context) (id : EntityId) : Bool := ctx.has name id

/-- Whether the REST API of the schema has been generated. -/
def isSchemaApiThere (ctx : Context) : Bool :=
  match ctx.schema.apiId? with
  | some id => isThere ctx id
  | none => false

def ids (ctx : Context) (id : EntityId) : Except GenerationError RestApiIds :=
  ctx.read name id fun
    | .restApi ids => some ids
    | _ => none

def resource (s : Schema) (api : Api) : Resource :=
  .ofFields kind (Name.identifier [api.name])
    ([("name", .text (Name.cloud [s.name, api.name])),
      ("binary_media_types", .list [.text "*/*"])] ++
      s.description.toList.map fun description => ("description", .text description))

def idsOf (r : Resource) : RestApiIds :=
  ⟨r.attr "id", r.attr "root_resource_id", r.attr "execution_arn"⟩

def generated (s : Schema) (api : Api) : Generated :=
  let r := resource s api
  ⟨.restApi (idsOf r), [r]⟩

def producer : Producer where
  name := name
  entities s := s.api.toList.map .api
  mayRun _ _ := true
  generate ctx entity :=
    match entity with
    | .api api => .ok (generated ctx.schema api)
    | _ => .error (.unexpectedEntity name entity.id)

end RestApi
end Aws
end InfraGraph
