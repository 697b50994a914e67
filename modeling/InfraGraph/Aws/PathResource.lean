import InfraGraph.Aws.RestApi

/-!
# PathResource — the tree of paths below the API

Every prefix of every route path, but the root, is a resource whose parent is the resource of the
next shorter prefix.  The root is part of the REST API itself.

* `Aws.PathResource.producer` — the path resources, longest first, each waiting for its parent;
* `Aws.PathResource.isReady`, `Aws.PathResource.idOf` — the resource behind a path, from outputs;
* `Aws.PathResource.reference` — the same reference, from names alone.
-/

namespace InfraGraph
namespace Aws
namespace PathResource

def name : String := "api_resource"

def kind : String := "aws_api_gateway_resource"

def resourceName (api : Api) (path : UriPath) : String :=
  Name.identifier (api.name :: path.nameParts)

/-- Reference to the resource of a path, from names alone. -/
def reference (api : Api) (rest : RestApiIds) (path : UriPath) : String :=
  if path.isRoot then rest.rootResourceId
  else kind ++ "." ++ resourceName api path ++ ".id"

def isReady (ctx : Context) (path : UriPath) : Bool :=
  if path.isRoot then RestApi.isSchemaApiThere ctx else ctx.has name (.path path)

def idOf (ctx : Context) (api : Api) (path : UriPath) : Except GenerationError String :=
  if path.isRoot then (RestApi.ids ctx (.api api.name)).map RestApiIds.rootResourceId
  else
    ctx.read name (.path path) fun
      | .pathResource id => some id
      | _ => none

def resource (api : Api) (rest : RestApiIds) (parentId : String) (path : UriPath)
    (segment : String) : Resource :=
  .ofFields kind (resourceName api path)
    [("rest_api_id", .ref rest.restApiId), ("parent_id", .ref parentId),
      ("path_part", .text segment)]

def generated (api : Api) (rest : RestApiIds) (parentId : String) (path : UriPath)
    (segment : String) : Generated :=
  let r := resource api rest parentId path segment
  ⟨.pathResource (r.attr "id"), [r]⟩

def generateFor (ctx : Context) (path parent : UriPath) (segment : String) :
    Except GenerationError Generated := do
  let api ← ctx.api name (.path path)
  let rest ← RestApi.ids ctx (.api api.name)
  let parentId ← idOf ctx api parent
  return generated api rest parentId path segment

def producer : Producer where
  name := name
  entities s := if s.api.isNone then [] else s.routePaths.toList.reverse.map .path
  mayRun ctx entity :=
    match entity with
    | .path path =>
        match path.parent? with
        | some parent => isReady ctx parent
        | none => false
    | _ => false
  generate ctx entity :=
    match entity with
    | .path path =>
        match path.parent?, path.last? with
        | some parent, some segment => generateFor ctx path parent segment
        | _, _ => .error (.unexpectedEntity name entity.id)
    | _ => .error (.unexpectedEntity name entity.id)

end PathResource
end Aws
end InfraGraph
