import InfraGraph.Proofs.Aws.Resolution
import InfraGraph.Proofs.Generation.Reachable

/-!
# One reference for the resource of a path

The resource of a path is referred to in two ways.  Routes read the reference from the output that
an earlier item has stored; preflight handlers make it from names, with the root as a case of its
own.  Whatever runs have led to a state, the two are the same.  Main statements:

* `Aws.RestApi.ids_eq_idsFor` — the references to the REST API that are stored;
* `Aws.PathResource.idOf_eq_referenceFor` — the reference to the resource of a path that is stored;
* `Aws.Gateway.pathIds` — what resources name the resource of their path by;
* `Aws.PathResource.stored_agrees_with_named` — routes and handlers name it by one reference.
-/

namespace InfraGraph
namespace Aws

variable {s : Schema} {ctx : Context} {api : Api}

/-! ## What is stored -/

/-- What is read of the API of the schema is made of names alone. -/
theorem RestApi.ids_eq_idsFor (h : ctx.Reachable s) (hapi : s.api = some api)
    (hhas : ctx.has name (.api api.name) = true) :
    RestApi.ids ctx (.api api.name) = .ok (idsFor s api) := by
  obtain ⟨output, hl⟩ := Context.has_iff.mp hhas
  obtain ⟨e, he, before, g, hschema, hg, _, rfl⟩ :=
    h.exists_generated (p := RestApi.producer) (Producer.mem_all_iff.mpr (Or.inl rfl)) hl
  obtain ⟨api', hapi', rfl⟩ := mem_entities_iff.mp he
  rw [hapi] at hapi'
  cases hapi'
  rw [generate_eq_ok_iff, hschema] at hg
  subst hg
  exact ids_eq_ok_iff.mpr hl

namespace PathResource

variable {path : UriPath}

/-- What is stored for a path below the root was made from the names of the path. -/
theorem idOf_eq_referenceFor (h : ctx.Reachable s) (hapi : s.api = some api)
    (hready : isReady ctx path = true) : idOf ctx api path = .ok (referenceFor s api path) := by
  by_cases hroot : path = .root
  · subst hroot
    have hids := RestApi.ids_eq_idsFor h hapi (has_of_isReady h.supported hapi hready).1
    exact idOf_root.mpr ⟨_, hids, rfl⟩
  · rw [isReady_of_ne_root hroot] at hready
    obtain ⟨output, hl⟩ := Context.has_iff.mp hready
    obtain ⟨e, he, before, g, hschema, hg, hid, rfl⟩ := h.exists_generated
      (p := PathResource.producer) (Producer.mem_all_iff.mpr (Or.inr (Or.inl rfl))) hl
    obtain ⟨_, _, q, _, rfl⟩ := mem_entities_iff.mp he
    -- the id of the entity tells the path that it was generated for
    cases EntityId.path_injective hid
    obtain ⟨_, _, api', rest, parentId, _, _, hapi', _, _, rfl⟩ := generate_eq_ok_iff.mp hg
    rw [hschema, hapi] at hapi'
    cases hapi'
    rw [idOf_of_ne_root hroot, hl]
    exact congrArg (fun id => some (Output.pathResource id)) (attr_resource hroot)

end PathResource

/-! ## What is emitted -/

/-- What the resources name the resource of their path by; some belong to no path. -/
def Gateway.pathIds (rs : List Resource) : List FieldValue :=
  rs.filterMap fun r => r.fields.get? "resource_id"

open Gateway (pathIds)

/-- Both resources of a route that name a path name the same one. -/
theorem Route.pathIds_generated {rest : RestApiIds} {target : FunctionIds} {id : String}
    {r : DynamicRoute} :
    pathIds (Route.generated api rest target id r).resources = List.replicate 2 (.ref id) := rfl

theorem StaticFile.pathIds_generated {rest : RestApiIds} {id bucket : String} {r : StaticRoute} :
    pathIds (StaticFile.generated s api rest id bucket r).resources =
      List.replicate 4 (.ref id) := rfl

theorem Preflight.pathIds_handlers {rest : RestApiIds} {path : UriPath} :
    pathIds (Preflight.handlers api rest path) =
      List.replicate 4 (.ref (PathResource.reference api rest path)) := rfl

/-- In every state that runs lead to, the reference that is stored for a ready path is the one made
from names and the stored references to the REST API, which are the same in all of these states.  So
routes on the path name it as the preflight handler of the path does. -/
theorem PathResource.stored_agrees_with_named {path : UriPath} (h : ctx.Reachable s)
    (hapi : s.api = some api) (hready : isReady ctx path = true) :
    ∃ rest, RestApi.ids ctx (.api api.name) = .ok rest ∧ rest = RestApi.idsFor s api ∧
      idOf ctx api path = .ok (reference api rest path) ∧
      (∀ r g, r.path = path → Route.producer.generate ctx (.route r) = .ok g →
        pathIds g.resources = List.replicate 2 (.ref (reference api rest path))) ∧
      (∀ r g, r.path = path → StaticFile.producer.generate ctx (.static r) = .ok g →
        pathIds g.resources = List.replicate 4 (.ref (reference api rest path))) ∧
      ∃ g, Preflight.producer.generate ctx (.api api) = .ok g ∧
        g.resources = s.servedPaths.toList.flatMap (Preflight.handlers api rest) ∧
        pathIds (Preflight.handlers api rest path) =
          List.replicate 4 (.ref (reference api rest path)) := by
  have hsupported := h.supported
  have hids := RestApi.ids_eq_idsFor h hapi (has_of_isReady hsupported hapi hready).1
  have hstored := idOf_eq_referenceFor h hapi hready
  -- an item that reads the reference has read the one that is stored
  have hread : ∀ {api' id}, ctx.schema.api = some api' → idOf ctx api' path = .ok id →
      id = referenceFor s api path := by
    intro api' id hapi' hid
    rw [hsupported.schema_eq, hapi] at hapi'
    cases hapi'
    rw [hstored] at hid
    exact (Except.ok.inj hid).symm
  refine ⟨RestApi.idsFor s api, hids, rfl, hstored, ?_, ?_, ?_⟩
  · rintro r g rfl hg
    obtain ⟨_, api', rest, target, id, hapi', _, _, hid, rfl⟩ := Route.generate_eq_ok_iff.mp hg
    rw [Route.pathIds_generated, hread hapi' hid]
    rfl
  · rintro r g rfl hg
    obtain ⟨bucket, api', rest, id, _, hapi', _, hid, rfl⟩ := StaticFile.generate_eq_ok_iff.mp hg
    rw [StaticFile.pathIds_generated, hread hapi' hid]
    rfl
  · refine ⟨_, Preflight.generate_eq_ok_iff.mpr ⟨_, hids, rfl⟩, ?_, Preflight.pathIds_handlers⟩
    rw [hsupported.schema_eq]
    rfl

/-- State of the small application after runs of which two have failed. -/
def served : Context := (Context.initial Schema.shop ⟨.empty⟩).afterRuns Schema.shopCalls

theorem stored_agrees_with_named_shop :
    ∃ api rest, served.Reachable Schema.shop ∧ Schema.shop.api = some api ∧
      PathResource.isReady served (.parse "/users/\x7bid\x7d") = true ∧
      PathResource.idOf served api (.parse "/users/\x7bid\x7d") =
        .ok "aws_api_gateway_resource.shop_api_users_id_param.id" ∧
      (∃ g, Route.producer.generate served
          (.route ⟨.parse "/users/\x7bid\x7d", .get, "users"⟩) = .ok g ∧
        pathIds g.resources =
          List.replicate 2 (.ref "aws_api_gateway_resource.shop_api_users_id_param.id")) ∧
      pathIds (Preflight.handlers api rest (.parse "/users/\x7bid\x7d")) =
        List.replicate 4 (.ref "aws_api_gateway_resource.shop_api_users_id_param.id") := by
  have hcalls : ∀ call ∈ Schema.shopCalls, ∀ p ∈ call, p ∈ Producer.all := by
    simp [Schema.shopCalls, Producer.all, Platform.producers]
  have hreach : served.Reachable Schema.shop :=
    Context.Reachable.afterRuns (.initial ⟨.empty⟩) hcalls
  have hready : PathResource.isReady served (.parse "/users/\x7bid\x7d") = true := by
    decide +kernel
  have hrouted : (Route.producer.generate served
      (.route ⟨.parse "/users/\x7bid\x7d", .get, "users"⟩)).isOk = true := by
    decide +kernel
  obtain ⟨g, hg⟩ := exists_of_isOk hrouted
  obtain ⟨api, hapi⟩ : ∃ api, Schema.shop.api = some api := ⟨_, rfl⟩
  obtain ⟨rest, _, rfl, hid, hroute, _, _, _, _, hhandlers⟩ :=
    PathResource.stored_agrees_with_named hreach hapi hready
  have hname : PathResource.reference api (RestApi.idsFor Schema.shop api)
      (.parse "/users/\x7bid\x7d") =
        "aws_api_gateway_resource.shop_api_users_id_param.id" := by
    cases hapi
    decide +kernel
  rw [hname] at hid hroute hhandlers
  exact ⟨api, _, hreach, hapi, hready, hid, ⟨g, hg, hroute _ g rfl hg⟩, hhandlers⟩

end Aws
end InfraGraph
