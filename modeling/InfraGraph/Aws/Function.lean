import InfraGraph.Access.Policy
import InfraGraph.Generation.Schedule

/-!
# Function — lambda functions with their role and policy

* `Aws.Function.producer` — role, policy and function for every lambda of the schema;
* `Aws.Function.isThere`, `Aws.Function.ids` — its output, for routes and timers.
-/

namespace InfraGraph

namespace Aws
namespace Function

def name : String := "lambda"

def functionKind : String := "aws_lambda_function"

def roleKind : String := "aws_iam_role"

def policyKind : String := "aws_iam_role_policy"

def isThere (ctx : Context) (lambda : String) : Bool := ctx.has name (.lambda lambda)

/-- Whether nothing has to be waited for before the lambda is referred to.  A lambda that the
schema lacks will never be there, so there is no point in waiting. -/
def isReady (ctx : Context) (lambda : String) : Bool :=
  !ctx.hasLambda lambda || isThere ctx lambda

def ids (ctx : Context) (lambda : String) : Except GenerationError FunctionIds :=
  ctx.read name (.lambda lambda) fun
    | .function ids => some ids
    | _ => none

/-- Document that lets the function service assume the role. -/
def assumeRolePolicy : String :=
  Json.compact (.obj
    [("Statement", .arr [.obj
        [("Action", .str "sts:AssumeRole"), ("Effect", .str "Allow"),
          ("Principal", .obj [("Service", .str "lambda.amazonaws.com")])]]),
      ("Version", .str "2012-10-17")])

def role (identifier functionName : String) : Resource :=
  .ofFields roleKind identifier
    [("name", .text functionName), ("assume_role_policy", .text assumeRolePolicy)]

def policy (identifier document : String) (role : Resource) : Resource :=
  .ofFields policyKind identifier
    [("role", .ref (role.attr "id")), ("policy", .text document)]

/-- Environment of a function; an empty one is left out. -/
def environment (l : Lambda) : List (String × FieldValue) :=
  if l.environment.isEmpty then []
  else
    let values := l.environment.entries.map fun (k, v) => (k, FieldValue.text v)
    [("environment", .ofPairs [("variables", .ofPairs values)])]

def function (identifier functionName : String) (l : Lambda) (role : Resource) : Resource :=
  .ofFields functionKind identifier
    ([("function_name", .text functionName), ("role", .ref (role.attr "arn")),
      ("handler", .text l.handler), ("runtime", .text l.runtime),
      ("memory_size", .natural l.memoryMb), ("timeout", .natural l.timeoutSec),
      ("filename", .text l.file),
      ("source_code_hash", .expr ("filebase64sha256(\"" ++ l.file ++ "\")"))] ++ environment l)

def generateFor (ctx : Context) (id : String) (l : Lambda) : Generated :=
  let identifier := Name.identifier [id]
  let functionName := Name.cloud [ctx.schema.name, id]
  let document :=
    (PolicyDocument.ofGrants (ctx.grants.of id) ctx.schema.region ctx.schema.account).text
  let role := role identifier functionName
  let function := function identifier functionName l role
  ⟨.function ⟨functionName, function.attr "arn", function.attr "invoke_arn"⟩,
    [role, policy identifier document role, function]⟩

def producer : Producer where
  name := name
  entities := Schema.lambdaEntities
  mayRun _ _ := true
  generate ctx entity :=
    match entity with
    | .lambda id l => .ok (generateFor ctx id l)
    | _ => .error (.unexpectedEntity name entity.id)

end Function
end Aws
end InfraGraph
