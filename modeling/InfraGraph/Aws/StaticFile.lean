import InfraGraph.Aws.Gateway
import InfraGraph.Aws.PathResource

/-!
# StaticFile — routes served from the bucket

* `Aws.StaticFile.objectKey` — key of the file in the bucket;
* `Aws.StaticFile.producer` — object, method, integration and responses for every static route.
-/

namespace InfraGraph
namespace Aws
namespace StaticFile

def name : String := "static_route"

def objectKind : String := "aws_s3_object"

/-- Key of the file in the bucket; the root is served as an index. -/
def objectKey (r : StaticRoute) : String :=
  if r.path.isRoot then "index.html" else r.path.display

def identifier (api : Api) (r : StaticRoute) : String :=
  Name.identifier (api.name :: "static" :: r.path.nameParts)

def object (identifier bucket : String) (r : StaticRoute) : Resource :=
  .ofFields objectKind identifier
    [("bucket", .text bucket), ("key", .text (objectKey r)), ("source", .text r.file),
      ("content_type", .text r.mime), ("etag", .expr ("filemd5(\"" ++ r.file ++ "\")"))]

/-- Integration that reads the object. -/
def integration (s : Schema) (identifier bucket : String) (rest : RestApiIds)
    (resourceId : String) (method : Resource) (r : StaticRoute) : Resource :=
  (Gateway.part Gateway.integrationKind identifier rest.restApiId resourceId method
    [("integration_http_method", .text "GET"), ("type", .text "AWS"),
      ("uri", .text ("arn:aws:apigateway:" ++ s.region ++ ":s3:path/" ++ bucket ++ "/" ++
        objectKey r))]).after [method.address]

def methodResponse (identifier : String) (rest : RestApiIds) (resourceId : String)
    (method : Resource) : Resource :=
  (Gateway.part Gateway.methodResponseKind identifier rest.restApiId resourceId method
    [("status_code", .text "200"),
      ("response_parameters", .ofPairs
        [("method.response.header.Content-Type", .bool true),
          ("method.response.header.Content-Length", .bool true)])]).after [method.address]

def integrationResponse (identifier : String) (rest : RestApiIds) (resourceId : String)
    (method methodResponse integration object : Resource) : Resource :=
  (Gateway.part Gateway.integrationResponseKind identifier rest.restApiId resourceId method
    [("status_code", .ref (methodResponse.attr "status_code")),
      ("response_parameters", .ofPairs
        [("method.response.header.Content-Type",
            .text "integration.response.header.Content-Type"),
          ("method.response.header.Content-Length",
            .text "integration.response.header.Content-Length")])]).after
    [integration.address, object.address]

def generated (s : Schema) (api : Api) (rest : RestApiIds) (resourceId bucket : String)
    (r : StaticRoute) : Generated :=
  let identifier := identifier api r
  let object := object identifier bucket r
  let method := Gateway.method identifier rest.restApiId resourceId "GET"
  let integration := integration s identifier bucket rest resourceId method r
  let methodResponse := methodResponse identifier rest resourceId method
  let integrationResponse :=
    integrationResponse identifier rest resourceId method methodResponse integration object
  ⟨.static ⟨object.address, method.address⟩,
    [object, method, integration, methodResponse, integrationResponse]⟩

def generateFor (ctx : Context) (r : StaticRoute) (bucket : String) :
    Except GenerationError Generated := do
  let api ← ctx.api name (.static r)
  let rest ← RestApi.ids ctx (.api api.name)
  let resourceId ← PathResource.idOf ctx api r.path
  return generated ctx.schema api rest resourceId bucket r

def producer : Producer where
  name := name
  entities s := if s.api.isNone then [] else s.routes.static.map .static
  mayRun ctx entity :=
    match entity with
    | .static r => PathResource.isReady ctx r.path
    | _ => false
  generate ctx entity :=
    match entity with
    | .static r =>
        match ctx.schema.bucket with
        | some bucket => generateFor ctx r bucket
        | none => .error (.unexpectedEntity name entity.id)
    | _ => .error (.unexpectedEntity name entity.id)

end StaticFile
end Aws
end InfraGraph
