import InfraGraph.Aws.Function
import InfraGraph.Aws.Gateway

/-!
# EventRule — timers on AWS

* `Aws.EventRule.generated` — rule, target and invoke permission of a timer.
-/

namespace InfraGraph
namespace Aws
namespace EventRule

def ruleKind : String := "aws_cloudwatch_event_rule"

def targetKind : String := "aws_cloudwatch_event_target"

def rule (s : Schema) (t : Timer) : Resource :=
  .ofFields ruleKind t.fqId
    [("name", .text (Name.cloud [s.name, t.fqId])),
      ("schedule_expression", .text ("cron(" ++ t.cron ++ ")"))]

def target (t : Timer) (rule : Resource) (function : FunctionIds) : Resource :=
  .ofFields targetKind t.fqId
    [("rule", .ref (rule.attr "name")), ("arn", .ref function.arn)]

def permission (t : Timer) (rule : Resource) (function : FunctionIds) : Resource :=
  .ofFields Gateway.permissionKind t.fqId
    [("statement_id", .text "AllowEventBridgeInvoke"), ("action", .text "lambda:InvokeFunction"),
      ("function_name", .text function.functionName), ("principal", .text "events.amazonaws.com"),
      ("source_arn", .ref (rule.attr "arn"))]

/-- Resources of a timer, and the address of the one that triggers. -/
def generated (s : Schema) (t : Timer) (function : FunctionIds) : Generated :=
  let rule := rule s t
  ⟨.timer rule.address, [rule, target t rule function, permission t rule function]⟩

def generateFor (ctx : Context) (t : Timer) : Except GenerationError Generated := do
  let function ← Function.ids ctx t.lambda
  return generated ctx.schema t function

end EventRule
end Aws
end InfraGraph
