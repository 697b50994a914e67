import InfraGraph.Access.Policy
import InfraGraph.Digest
import InfraGraph.Generation.Schedule

/-!
# FunctionApp — lambdas on Azure

* `Azure.FunctionApp.producer` — an app for every lambda, with an assignment for each of its roles;
* `Azure.FunctionApp.isReady`, `Azure.FunctionApp.ids` — its output, for bindings.
-/

namespace InfraGraph
namespace Azure
namespace FunctionApp

def name : String := "function_app"

def appKind : String := "azurerm_function_app"

def roleKind : String := "azurerm_role_assignment"

/-- Whether nothing has to be waited for before the app of a lambda is referred to. -/
def isReady (ctx : Context) (lambda : String) : Bool :=
  !ctx.hasLambda lambda || ctx.has name (.lambda lambda)

def ids (ctx : Context) (lambda : String) : Except GenerationError FunctionAppIds :=
  ctx.read name (.lambda lambda) fun
    | .functionApp ids => some ids
    | _ => none

/-- Settings of an app; the environment can replace the runtime. -/
def settings (l : Lambda) : FieldValue :=
  .ofPairs (("FUNCTIONS_WORKER_RUNTIME", .text "java") ::
    l.environment.entries.map fun (k, v) => (k, .text v))

def app (s : Schema) (id : String) (l : Lambda) : Resource :=
  .ofFields appKind (Name.identifier [id])
    [("name", .text (Name.cloud [s.name, id])), ("location", .text s.region),
      ("app_settings", settings l),
      ("identity", .ofPairs [("type", .text "SystemAssigned")])]

/-- Assignment of a role to the identity of an app. -/
def assignment (id principalId : String) (role : RoleAssignment) : Resource :=
  .ofFields roleKind (Name.identifier [id, role.role, Digest.short role.scope])
    [("scope", .text role.scope), ("role_definition_name", .text role.role),
      ("principal_id", .ref principalId)]

def generateFor (ctx : Context) (id : String) (l : Lambda) : Generated :=
  let app := app ctx.schema id l
  let principalId := app.attr "identity.0.principal_id"
  let roles := RoleAssignment.ofGrants (ctx.grants.of id) ctx.schema.account
  ⟨.functionApp ⟨Name.cloud [ctx.schema.name, id], app.address, principalId⟩,
    app :: roles.toList.map (assignment id principalId)⟩

def producer : Producer where
  name := name
  entities := Schema.lambdaEntities
  mayRun _ _ := true
  generate ctx entity :=
    match entity with
    | .lambda id l => .ok (generateFor ctx id l)
    | _ => .error (.unexpectedEntity name entity.id)

end FunctionApp
end Azure
end InfraGraph
