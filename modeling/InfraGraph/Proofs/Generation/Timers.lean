import InfraGraph.Generation.Timers
import InfraGraph.Proofs.Generation.Context

/-!
# What the producer of timers generates for, and when it succeeds

* `Timers.mem_entities_iff` — the timers of the schema, on either platform;
* `Timers.generate_aws_eq_ok_iff`, `Timers.generate_azure_eq_ok_iff` — when it succeeds.
-/

namespace InfraGraph
namespace Timers

variable {s : Schema} {ctx : Context} {e : Entity} {g : Generated}

theorem mem_entities_iff : e ∈ producer.entities s ↔ ∃ t ∈ s.timers, e = .timer t := by
  simp [producer, eq_comm]

/-- On AWS a timer is generated for once the function of its lambda is there. -/
theorem generate_aws_eq_ok_iff {t : Timer} (h : ctx.schema.platform = .aws) :
    producer.generate ctx (.timer t) = .ok g ↔
      ctx.hasLambda t.lambda = true ∧ ∃ function, Aws.Function.ids ctx t.lambda = .ok function ∧
        g = Aws.EventRule.generated ctx.schema t function := by
  cases hget : ctx.schema.lambdas.get? t.lambda with
  | none => simp [producer, generateFor, hget, Context.hasLambda, OrderedMap.contains]
  | some l =>
      simp [producer, generateFor, hget, h, Aws.EventRule.generateFor, bind_eq_ok_iff, pure,
        Except.pure, Context.hasLambda, OrderedMap.contains, @eq_comm _ g]

/-- On Azure a timer waits for nothing but needs its lambda. -/
theorem generate_azure_eq_ok_iff {t : Timer}
    (h : ctx.schema.platform = .azure) :
    producer.generate ctx (.timer t) = .ok g ↔
      ∃ l, ctx.schema.lambdas.get? t.lambda = some l ∧ g = Azure.TimerBinding.generateFor l t := by
  cases hget : ctx.schema.lambdas.get? t.lambda with
  | none => simp [producer, generateFor, hget]
  | some l => simp [producer, generateFor, hget, h, @eq_comm _ g]

end Timers
end InfraGraph
