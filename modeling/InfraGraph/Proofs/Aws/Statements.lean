import InfraGraph.Proofs.Aws.Completion
import InfraGraph.Proofs.Aws.Inventory

/-!
# The statements of a function's policy

Each dynamic route and each timer permits its caller to invoke its lambda, by a statement of the
policy of the function.  The provider tells the statements of one function apart by their ids, and
these name the caller's service only: routes have one id and timers another.  Main statements:

* `Aws.Gateway.statement` — the function and the id of a permission;
* `Schema.perm_statements` — the statements of a pass are those of the routes and the timers;
* `Schema.aws_nodup_statements_iff` — when no two permissions have one function and one id;
* `Schema.not_nodup_statements_bustling` — an accepted schema for which two have.
-/

namespace InfraGraph

namespace Aws
namespace Gateway

def permissions (rs : List Resource) : List Resource := rs.filter fun r => r.kind = permissionKind

/-- What tells a permission from others: the function and the id of its statement. -/
def statement (r : Resource) : Option FieldValue × Option FieldValue :=
  (r.fields.get? "function_name", r.fields.get? "statement_id")

/-- Statement with an id, of the function of a lambda. -/
def statementFor (s : Schema) (id lambda : String) : Option FieldValue × Option FieldValue :=
  (some (.text (Name.cloud [s.name, lambda])), some (.text id))

end Gateway

open Gateway

def Route.statementId : String := "AllowApiGatewayInvoke"

def EventRule.statementId : String := "AllowEventBridgeInvoke"

variable {s : Schema} {api : Api}

/-! ## Routes and timers -/

/-- A route adds one statement to the function of its lambda. -/
theorem Route.statements_generated {rest : RestApiIds} {resourceId : String} {r : DynamicRoute} :
    (permissions (Route.generated api rest (Function.idsFor s r.lambda) resourceId r).resources).map
      statement = [statementFor s Route.statementId r.lambda] := rfl

/-- A timer adds one, with an id of its own. -/
theorem EventRule.statements_generated {t : Timer} :
    (permissions (EventRule.generated s t (Function.idsFor s t.lambda)).resources).map statement =
      [statementFor s EventRule.statementId t.lambda] := rfl

/-- So the routes add one statement each, whatever they lead to. -/
theorem Family.statements_route (grants : Grants) (hapi : s.api = none → s.routes.dynamic = []) :
    (permissions (route.resources s grants)).map statement =
      s.routes.dynamic.map fun r => statementFor s Route.statementId r.lambda := by
  cases h : s.api with
  | none => simp [resources, producer, Route.producer, h, hapi h, permissions]
  | some api =>
      refine map_filter_resources .route ?_ fun r _ => ?_
      · simp [producer, Route.producer, h]
      · exact ⟨Route.generated api (RestApi.idsFor s api) (Function.idsFor s r.lambda)
          (PathResource.referenceFor s api r.path) r, by simp [prescribed, h],
          Route.statements_generated⟩

theorem Family.statements_timer (s : Schema) (grants : Grants) :
    (permissions (timer.resources s grants)).map statement =
      s.timers.map fun t => statementFor s EventRule.statementId t.lambda :=
  map_filter_resources .timer rfl fun _ _ => ⟨_, rfl, EventRule.statements_generated⟩

end Aws

namespace Schema

open Aws Gateway

variable {s : Schema} {library : List Declaration} {pass : Pass}

/-! ## Of a pass -/

/-- The statements of a pass are those of the routes and the timers. -/
theorem perm_statements (haws : s.platform = .aws) (hvalid : s.violations = [])
    (hgen : s.generate library = .ok pass) :
    ((permissions pass.resources).map statement).Perm
      ((s.routes.dynamic.map DynamicRoute.lambda).map (statementFor s Route.statementId) ++
        (s.timers.map Timer.lambda).map (statementFor s EventRule.statementId)) := by
  rcases generate_ok hgen with ⟨grants, _, _, hgrants, _⟩
  have hroutes := Family.statements_route grants
    fun hapi => (routes_eq_nil_of_api_eq_none haws hvalid hapi).1
  have htimers := Family.statements_timer s grants
  have hperm : (permissions pass.resources).Perm _ :=
    aws_perm_filter haws hgrants hgen fun r hr => of_decide_eq_true hr
  have hfamilies : (Family.all.filter fun a => permissionKind ∈ a.kinds) = [.route, .timer] := by
    decide
  unfold permissions at hroutes htimers hperm ⊢
  rw [hfamilies] at hperm
  simpa [hroutes, htimers, Function.comp_def] using hperm.map statement

/-- Lambdas of an accepted schema have functions of their own. -/
theorem statementFor_injOn (h : s.Accepted) (id : String) {a b : String} (ha : s.hasLambda a = true)
    (hb : s.hasLambda b = true) (he : statementFor s id a = statementFor s id b) : a = b := by
  simp only [statementFor, Prod.mk.injEq, Option.some.injEq, FieldValue.text.injEq, and_true] at he
  exact h.function_names a (OrderedMap.contains_iff.mp ha) b (OrderedMap.contains_iff.mp hb) he

/-- Functions have names of their own, so statements of one id are distinct iff the lambdas are. -/
theorem nodup_statementFor_iff (h : s.Accepted) (id : String) {lambdas : List String}
    (hlambdas : ∀ a ∈ lambdas, s.hasLambda a = true) :
    (lambdas.map (statementFor s id)).Nodup ↔ lambdas.Nodup :=
  ⟨List.Nodup.of_map _, fun hnodup => hnodup.map_on fun a ha b hb =>
    statementFor_injOn h id (hlambdas a ha) (hlambdas b hb)⟩

/-- On accepted schemas no two permissions of a pass have one function and one statement id iff no
two routes lead to one lambda and no two timers do. -/
theorem aws_nodup_statements_iff (haws : s.platform = .aws) (hvalid : s.violations = [])
    (hgen : s.generate library = .ok pass) :
    ((permissions pass.resources).map statement).Nodup ↔
      (s.routes.dynamic.map DynamicRoute.lambda).Nodup ∧ (s.timers.map Timer.lambda).Nodup := by
  have haccepted := accepted_of_violations_eq_nil hvalid
  -- a route and a timer have different ids, so only callers of one sort can meet
  have hdisjoint : ((s.routes.dynamic.map DynamicRoute.lambda).map
      (statementFor s Route.statementId)).Disjoint
        ((s.timers.map Timer.lambda).map (statementFor s EventRule.statementId)) := by
    intro entry hroute htimer
    rcases List.mem_map.mp hroute with ⟨a, _, rfl⟩
    rcases List.mem_map.mp htimer with ⟨b, _, he⟩
    exact absurd (Prod.mk.inj he).2 (by decide)
  have hroutes : ∀ a ∈ s.routes.dynamic.map DynamicRoute.lambda, s.hasLambda a = true :=
    List.forall_mem_map.mpr haccepted.route_lambda
  have htimers : ∀ a ∈ s.timers.map Timer.lambda, s.hasLambda a = true :=
    List.forall_mem_map.mpr haccepted.timer_lambda
  rw [(perm_statements haws hvalid hgen).nodup_iff, List.nodup_append',
    nodup_statementFor_iff haccepted _ hroutes, nodup_statementFor_iff haccepted _ htimers]
  exact ⟨fun h => ⟨h.1, h.2.1⟩, fun h => ⟨h.1, h.2, hdisjoint⟩⟩

/-- The route and the timer of the small application lead to one lambda. -/
theorem nodup_statements_shop : shop.violations = [] ∧ ∃ pass, shop.generate [] = .ok pass ∧
    ((permissions pass.resources).map statement).Nodup := by
  rcases exists_of_isOk isOk_generate_shop with ⟨pass, hgen⟩
  refine ⟨violations_shop, pass, hgen, ?_⟩
  exact (aws_nodup_statements_iff (s := shop) rfl violations_shop hgen).mpr (by decide)

/-- Two routes that lead to one lambda. -/
def bustling : Schema :=
  { shop with
    routes :=
      { dynamic := [⟨.parse "/users", .get, "users"⟩, ⟨.parse "/users", .post, "users"⟩]
        static := [] } }

/-- That no violation is reported does not keep statements apart: there is an accepted schema for
which a pass succeeds and emits two permissions with one function and one id. -/
theorem not_nodup_statements_bustling : bustling.platform = .aws ∧ bustling.violations = [] ∧
    ∃ pass, bustling.generate [] = .ok pass ∧
      ¬((permissions pass.resources).map statement).Nodup := by
  have hvalid : bustling.violations = [] := by decide +kernel
  have hok : (bustling.generate []).isOk = true := by decide +kernel
  rcases exists_of_isOk hok with ⟨pass, hgen⟩
  refine ⟨rfl, hvalid, pass, hgen, fun hnodup => ?_⟩
  have hlambdas := List.Nodup.of_map _ (List.nodup_append'.mp
    ((perm_statements rfl hvalid hgen).nodup_iff.mp hnodup)).1
  exact absurd hlambdas (by decide)

end Schema
end InfraGraph
