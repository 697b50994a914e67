import InfraGraph.Azure.Binding
import InfraGraph.Azure.FunctionApp

/-!
# HttpBinding — dynamic routes on Azure

* `Azure.HttpBinding.functionName` — directory of the function that answers a route;
* `Azure.HttpBinding.document` — its binding document;
* `Azure.HttpBinding.producer` — a binding file for every dynamic route.
-/

namespace InfraGraph
namespace Azure
namespace HttpBinding

def name : String := "http_binding"

/-- Directory of the function that answers a route. -/
def functionName (r : DynamicRoute) : String :=
  Name.identifier ("http" :: r.method.text :: r.path.nameParts)

/-- Binding of the request, with members by key. -/
def request (r : DynamicRoute) : Json :=
  .obj [("authLevel", .str "anonymous"), ("direction", .str "in"),
    ("methods", .arr [.str r.method.lowercase]), ("name", .str "req"),
    ("route", .str r.path.display), ("type", .str "httpTrigger")]

/-- Binding of the answer, with members by key. -/
def response : Json :=
  .obj [("direction", .str "out"), ("name", .str "$return"), ("type", .str "http")]

def document (l : Lambda) (r : DynamicRoute) : String := Binding.document l [request r, response]

def file (l : Lambda) (r : DynamicRoute) : Resource :=
  Binding.file (Name.identifier ["http_binding", functionName r]) (document l r)
    (Binding.place l (functionName r))

def generated (l : Lambda) (r : DynamicRoute) (app : FunctionAppIds) : Generated :=
  let file := (file l r).after [app.address]
  ⟨.httpBinding file.address, [file]⟩

def generateFor (ctx : Context) (r : DynamicRoute) : Except GenerationError Generated :=
  match ctx.schema.lambdas.get? r.lambda with
  | none => .error (.unknownLambda (Entity.route r).id r.lambda)
  | some l => do
      let app ← FunctionApp.ids ctx r.lambda
      return generated l r app

def producer : Producer where
  name := name
  entities s := s.routes.dynamic.map .route
  mayRun ctx entity :=
    match entity with
    | .route r => FunctionApp.isReady ctx r.lambda
    | _ => false
  generate ctx entity :=
    match entity with
    | .route r => generateFor ctx r
    | _ => .error (.unexpectedEntity name entity.id)

end HttpBinding
end Azure
end InfraGraph
