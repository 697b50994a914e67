import InfraGraph.Aws.Gateway
import InfraGraph.Aws.PathResource

/-!
# Preflight — answers to cross-origin preflight requests

The root and every path of a route get a method that answers with the allowed headers, methods and
origin.  Routes that share a path share its handler.  References to path resources come from names,
so only the REST API has to be there before.

* `Aws.Preflight.handlers` — the resources of one path;
* `Aws.Preflight.producer` — the handlers of an API that allows cross-origin requests.
-/

namespace InfraGraph
namespace Aws
namespace Preflight

def name : String := "cors"

def headers : List (String × String) :=
  [("Access-Control-Allow-Headers",
      "'Content-Type,X-Amz-Date,Authorization,X-Api-Key,X-Amz-Security-Token'"),
    ("Access-Control-Allow-Methods", "'GET,POST,PUT,DELETE,OPTIONS'"),
    ("Access-Control-Allow-Origin", "'*'"),
    ("Access-Control-Max-Age", "'86400'")]

def parameter (header : String) : String := "method.response.header." ++ header

/-- Identifier of a handler's part; the root stands under a name of its own. -/
def handlerName (api : Api) (role : String) (path : UriPath) : String :=
  Name.identifier (api.name :: "cors" :: role ::
    if path.isRoot then [Name.root] else path.nameParts)

def method (api : Api) (rest : RestApiIds) (path : UriPath) : Resource :=
  Gateway.method (handlerName api "options" path) rest.restApiId
    (PathResource.reference api rest path) "OPTIONS"

/-- Integration that answers without a backend. -/
def integration (api : Api) (rest : RestApiIds) (path : UriPath) (method : Resource) : Resource :=
  (Gateway.part Gateway.integrationKind (handlerName api "options" path) rest.restApiId
    (PathResource.reference api rest path) method
    [("type", .text "MOCK"),
      ("request_templates",
        .ofPairs [("application/json", .text "\x7b\"statusCode\": 200\x7d")])]).after
    [method.address]

def methodResponse (api : Api) (rest : RestApiIds) (path : UriPath) (method : Resource) :
    Resource :=
  (Gateway.part Gateway.methodResponseKind (handlerName api "response" path) rest.restApiId
    (PathResource.reference api rest path) method
    [("status_code", .text "200"),
      ("response_parameters",
        .ofPairs (headers.map fun (header, _) => (parameter header, .bool true)))]).after
    [method.address]

def integrationResponse (api : Api) (rest : RestApiIds) (path : UriPath)
    (method integration methodResponse : Resource) : Resource :=
  (Gateway.part Gateway.integrationResponseKind (handlerName api "response" path) rest.restApiId
    (PathResource.reference api rest path) method
    [("status_code", .ref (methodResponse.attr "status_code")),
      ("response_parameters",
        .ofPairs (headers.map fun (header, value) => (parameter header, .text value)))]).after
    [methodResponse.address, integration.address]

def handlers (api : Api) (rest : RestApiIds) (path : UriPath) : List Resource :=
  let method := method api rest path
  let integration := integration api rest path method
  let methodResponse := methodResponse api rest path method
  [method, integration, methodResponse,
    integrationResponse api rest path method integration methodResponse]

/-- What is generated for an API: the handlers of every path. -/
def generated (s : Schema) (api : Api) (rest : RestApiIds) : Generated :=
  let paths := s.servedPaths.toList
  ⟨.preflight (paths.map fun p => (method api rest p).address),
    paths.flatMap (handlers api rest)⟩

def generateFor (ctx : Context) (api : Api) : Except GenerationError Generated := do
  let rest ← RestApi.ids ctx (.api api.name)
  return generated ctx.schema api rest

def producer : Producer where
  name := name
  entities s := (s.api.toList.filter Api.allowCors).map .api
  mayRun ctx entity :=
    match entity with
    | .api api => api.allowCors && RestApi.isThere ctx (.api api.name)
    | _ => false
  generate ctx entity :=
    match entity with
    | .api api => generateFor ctx api
    | _ => .error (.unexpectedEntity name entity.id)

end Preflight
end Aws
end InfraGraph
