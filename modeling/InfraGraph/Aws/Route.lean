import InfraGraph.Aws.Function
import InfraGraph.Aws.Gateway
import InfraGraph.Aws.PathResource

/-!
# Route — routes dispatched to a lambda

* `Aws.Route.producer` — method, integration and invoke permission for every dynamic route.
-/

namespace InfraGraph
namespace Aws
namespace Route

def name : String := "dynamic_route"

def routeName (api : Api) (r : DynamicRoute) : String :=
  Name.identifier (api.name :: r.path.nameParts ++ [r.method.text])

def method (identifier : String) (rest : RestApiIds) (resourceId : String) (r : DynamicRoute) :
    Resource :=
  Gateway.method identifier rest.restApiId resourceId r.method.text

def integration (identifier : String) (rest : RestApiIds) (resourceId : String)
    (method : Resource) (target : FunctionIds) : Resource :=
  Gateway.part Gateway.integrationKind identifier rest.restApiId resourceId method
    [("integration_http_method", .text "POST"), ("type", .text "AWS_PROXY"),
      ("uri", .ref target.invokeArn)]

/-- Permission of the API to invoke the lambda of a route. -/
def permission (identifier : String) (rest : RestApiIds) (r : DynamicRoute)
    (target : FunctionIds) : Resource :=
  .ofFields Gateway.permissionKind identifier
    [("statement_id", .text "AllowApiGatewayInvoke"), ("action", .text "lambda:InvokeFunction"),
      ("function_name", .text target.functionName),
      ("principal", .text "apigateway.amazonaws.com"),
      ("source_arn", .text ("$\x7b" ++ rest.executionArn ++ "\x7d/*/" ++ r.method.text ++ "/" ++
        r.path.display))]

def generated (api : Api) (rest : RestApiIds) (target : FunctionIds) (resourceId : String)
    (r : DynamicRoute) : Generated :=
  let identifier := routeName api r
  let method := method identifier rest resourceId r
  let integration := integration identifier rest resourceId method target
  ⟨.route ⟨method.address, integration.address⟩,
    [method, integration, permission identifier rest r target]⟩

def generateFor (ctx : Context) (r : DynamicRoute) : Except GenerationError Generated := do
  if ctx.hasLambda r.lambda = false then
    throw (.unknownLambda (Entity.route r).id r.lambda)
  let api ← ctx.api name (.route r)
  let rest ← RestApi.ids ctx (.api api.name)
  let target ← Function.ids ctx r.lambda
  let resourceId ← PathResource.idOf ctx api r.path
  return generated api rest target resourceId r

def producer : Producer where
  name := name
  entities s := if s.api.isNone then [] else s.routes.dynamic.map .route
  mayRun ctx entity :=
    match entity with
    | .route r => Function.isReady ctx r.lambda && PathResource.isReady ctx r.path
    | _ => false
  generate ctx entity :=
    match entity with
    | .route r => generateFor ctx r
    | _ => .error (.unexpectedEntity name entity.id)

end Route
end Aws
end InfraGraph
