import InfraGraph.Collection.OrderedMap
import InfraGraph.Entity
import InfraGraph.Json.Basic

/-!
# Output — what producers publish

A producer leaves an output for each entity it has generated for.  Other producers read from it the
symbolic names of the resources they refer to.

* `Output` — an output of any producer;
* `Output.toJson` — its JSON form, with the members of objects by key;
* `Manifest` — the outputs of a pass in order of registration, each under a text key;
* `Manifest.key`, `Manifest.get?` — the key of an output, and the output under it.
-/

namespace InfraGraph

structure RestApiIds where
  restApiId : String
  rootResourceId : String
  executionArn : String
deriving DecidableEq

structure FunctionIds where
  /-- Name the provider sees. -/
  functionName : String
  arn : String
  /-- Reference that integrations of an API invoke. -/
  invokeArn : String
deriving DecidableEq

structure RouteAddresses where
  method : String
  integration : String
deriving DecidableEq

structure StaticAddresses where
  object : String
  method : String
deriving DecidableEq

/-- Stage that an API is published under, with the address of its deployment. -/
structure Stage where
  name : String
  deployment : String
deriving DecidableEq

structure FunctionAppIds where
  appName : String
  address : String
  principalId : String
deriving DecidableEq

inductive Output where
  | restApi (ids : RestApiIds)
  | pathResource (id : String)
  | function (ids : FunctionIds)
  | route (addresses : RouteAddresses)
  | static (addresses : StaticAddresses)
  | deployment (stage : Stage)
  | preflight (methods : List String)
  | timer (binding : String)
  | dns (fqdn : String)
  | functionApp (ids : FunctionAppIds)
  | httpBinding (binding : String)
  /-- Output that no other producer reads by its parts. -/
  | value (json : Json)

namespace Output

def json : Output → Json
  | restApi ids =>
      .obj [("rest_api_id", .str ids.restApiId), ("root_resource_id", .str ids.rootResourceId),
        ("execution_arn", .str ids.executionArn)]
  | pathResource id => .obj [("resource_id", .str id)]
  | function ids =>
      .obj [("function_name", .str ids.functionName), ("arn", .str ids.arn),
        ("invoke_arn", .str ids.invokeArn)]
  | route a => .obj [("method", .str a.method), ("integration", .str a.integration)]
  | static a => .obj [("object", .str a.object), ("method", .str a.method)]
  | deployment s => .obj [("stage_name", .str s.name), ("deployment", .str s.deployment)]
  | preflight methods => .obj [("methods", .arr (methods.map .str))]
  | timer binding => .obj [("binding", .str binding)]
  | dns fqdn => .obj [("fqdn", .str fqdn)]
  | functionApp ids =>
      .obj [("app_name", .str ids.appName), ("address", .str ids.address),
        ("principal_id", .str ids.principalId)]
  | httpBinding binding => .obj [("binding", .str binding)]
  | value v => v

def toJson (o : Output) : Json := o.json.sorted

end Output

/-! ## Outputs for readers outside a pass -/

structure Manifest where
  outputs : OrderedMap Json

namespace Manifest

def empty : Manifest := ⟨.empty⟩

def key (producer : String) (entity : EntityId) : String := producer ++ "/" ++ entity.text

def get? (m : Manifest) (producer : String) (entity : EntityId) : Option Json :=
  m.outputs.get? (key producer entity)

end Manifest

end InfraGraph
