import InfraGraph.Aws.RestApi

/-!
# Publication — the deployment of the API

The deployment carries a variable that the provisioning tool evaluates anew on every run, so it is
recreated each time and picks up changed routes.

* `Aws.Publication.producer` — one deployment for the API of the schema;
* `Aws.Publication.isThere`, `Aws.Publication.stage` — its output, for the domain alias.
-/

namespace InfraGraph
namespace Aws
namespace Publication

def name : String := "deployment"

def kind : String := "aws_api_gateway_deployment"

def idFor (api : Api) : EntityId := (Entity.deployment api.resolvedDeployment).id

def isThere (ctx : Context) (api : Api) : Bool := ctx.has name (idFor api)

def stage (ctx : Context) (api : Api) : Except GenerationError Stage :=
  ctx.read name (idFor api) fun
    | .deployment stage => some stage
    | _ => none

def resource (api : Api) (rest : RestApiIds) (d : Deployment) : Resource :=
  .ofFields kind (Name.identifier [api.deploymentName])
    [("rest_api_id", .ref rest.restApiId), ("stage_name", .text d.version),
      ("variables", .ofPairs [("deployed_at", .expr "timestamp()")])]

def generated (api : Api) (rest : RestApiIds) (d : Deployment) : Generated :=
  let r := resource api rest d
  ⟨.deployment ⟨d.version, r.address⟩, [r]⟩

def generateFor (ctx : Context) (d : Deployment) : Except GenerationError Generated := do
  let api ← ctx.api name (.deployment d)
  let rest ← RestApi.ids ctx (.api api.name)
  return generated api rest d

def producer : Producer where
  name := name
  entities s := s.api.toList.map fun api => .deployment api.resolvedDeployment
  mayRun ctx _ := RestApi.isSchemaApiThere ctx
  generate ctx entity :=
    match entity with
    | .deployment d => generateFor ctx d
    | _ => .error (.unexpectedEntity name entity.id)

end Publication
end Aws
end InfraGraph
