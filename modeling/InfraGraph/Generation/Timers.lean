import InfraGraph.Aws.EventRule
import InfraGraph.Azure.Binding

/-!
# Timers — lambdas invoked on a schedule

* `Timers.producer` — an event rule on AWS and a binding file on Azure for every timer.
-/

namespace InfraGraph
namespace Timers

def name : String := "scheduled"

def generateFor (ctx : Context) (t : Timer) : Except GenerationError Generated :=
  match ctx.schema.lambdas.get? t.lambda with
  | none => .error (.unknownLambda (Entity.timer t).id t.lambda)
  | some l =>
      match ctx.schema.platform with
      | .azure => .ok (Azure.TimerBinding.generateFor l t)
      | .aws => Aws.EventRule.generateFor ctx t

def producer : Producer where
  name := name
  entities s := s.timers.map .timer
  mayRun ctx entity :=
    match entity with
    | .timer t =>
        match ctx.schema.platform with
        | .azure => true
        | .aws => Aws.Function.isReady ctx t.lambda
    | _ => false
  generate ctx entity :=
    match entity with
    | .timer t => generateFor ctx t
    | _ => .error (.unexpectedEntity name entity.id)

end Timers
end InfraGraph
