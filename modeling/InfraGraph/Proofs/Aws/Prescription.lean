import InfraGraph.Proofs.Aws.Resolution

/-!
# What AWS items generate, from names alone

A producer reads outputs of others from the state of a pass.  Outputs hold what names alone would
give, so what is generated for an entity is prescribed by the schema and the grants, whatever the
order of completions.  Main statements:

* `Function.ids_eq`, `Publication.stage_eq` — outputs and names agree;
* `Aws.Family.prescribed` — what is generated for an entity, from names and grants;
* `Aws.Family.prescribed_eq`, `Aws.exists_prescribed` — every state of a pass generates just that;
* `Aws.exists_prescribed_of_mem` — every resource of a pass is prescribed.
-/

namespace InfraGraph
namespace Aws

variable {s : Schema} {grants : Grants} {done : List Completion} {ctx : Context} {api : Api}
  {e : Entity} {g : Generated}

/-! ## Outputs and names agree -/

/-- What is stored for a lambda is made of names alone. -/
theorem Function.ids_eq (h : History Platform.aws.producers s grants done ctx) {id : String}
    {function : FunctionIds} (hids : Function.ids ctx id = .ok function) :
    function = idsFor s id := by
  rcases Function.of_lookup h (Function.ids_eq_ok_iff.mp hids) with ⟨he, _⟩
  cases he
  rfl

/-- Stage that the API of a schema is published under, from names alone. -/
def Publication.stageFor (s : Schema) (api : Api) : Stage :=
  ⟨api.resolvedDeployment.version,
    (resource api (RestApi.idsFor s api) api.resolvedDeployment).address⟩

/-- The stage that is stored for an API is the one that names give. -/
theorem Publication.stage_eq (h : History Platform.aws.producers s grants done ctx)
    (hapi : s.api = some api) {st : Stage} (hst : Publication.stage ctx api = .ok st) :
    st = stageFor s api := by
  rcases Publication.of_lookup h (Publication.stage_eq_ok_iff.mp hst) with ⟨api', _, hapi', he, _⟩
  rw [hapi] at hapi'
  cases hapi'
  cases he
  -- the address of a deployment does not depend on the API that it refers to
  rfl

/-! ## What is prescribed -/

namespace Family

/-- What is generated for an entity of a family, from names and grants; other entities have
nothing. -/
def prescribed (s : Schema) (grants : Grants) : Family → Entity → Option Generated
  | restApi, .api api => some (RestApi.generated s api)
  | path, .path p => do
      let api ← s.api
      let parent ← p.parent?
      let segment ← p.last?
      return PathResource.generated api (RestApi.idsFor s api)
        (PathResource.referenceFor s api parent) p segment
  | function, .lambda id l => some (Function.generateFor (.initial s grants) id l)
  | route, .route r => do
      let api ← s.api
      return Route.generated api (RestApi.idsFor s api) (Function.idsFor s r.lambda)
        (PathResource.referenceFor s api r.path) r
  | static, .static r => do
      let api ← s.api
      let bucket ← s.bucket
      return StaticFile.generated s api (RestApi.idsFor s api)
        (PathResource.referenceFor s api r.path) bucket r
  | publication, .deployment d => do
      let api ← s.api
      return Publication.generated api (RestApi.idsFor s api) d
  | preflight, .api api => some (Preflight.generated s api (RestApi.idsFor s api))
  | timer, .timer t => some (EventRule.generated s t (Function.idsFor s t.lambda))
  | domain, .dns d => do
      let api ← s.api
      return DomainAlias.generated (RestApi.idsFor s api) (Publication.stageFor s api) d
  | _, _ => none

/-- Lambdas are the entities of one family. -/
theorem prescribed_lambda_of_ne {a : Family} (h : a ≠ function) (id : String) (l : Lambda) :
    a.prescribed s grants (.lambda id l) = none := by
  cases a with
  | function => exact absurd rfl h
  | _ => rfl

/-- Every state of a pass generates what is prescribed. -/
theorem prescribed_eq (a : Family) (h : History Platform.aws.producers s grants done ctx)
    (haws : s.platform = .aws) (he : e ∈ a.producer.entities s)
    (hg : a.producer.generate ctx e = .ok g) : a.prescribed s grants e = some g := by
  have hschema := h.schema_eq
  cases a with
  | restApi =>
      rcases RestApi.mem_entities_iff.mp he with ⟨api, _, rfl⟩
      rw [RestApi.generate_eq_ok_iff.mp hg, hschema]
      rfl
  | path =>
      rcases PathResource.mem_entities_iff.mp he with ⟨_, _, p, _, rfl⟩
      rcases PathResource.generate_eq_ok_iff.mp hg with
          ⟨parent, segment, api, rest, id, hparent, hlast, hapi, hrest, hid, rfl⟩
      rw [hschema] at hapi
      rw [RestApi.ids_eq h hapi hrest, PathResource.idOf_eq_reference h hapi hid]
      simp [prescribed, hapi, hparent, hlast]
  | function =>
      rcases Function.mem_entities_iff.mp he with ⟨id, l, _, rfl⟩
      rw [Function.generate_eq_ok_iff.mp hg]
      simp only [prescribed, Function.generateFor, hschema, h.grants_eq]
      rfl
  | route =>
      rcases Route.mem_entities_iff.mp he with ⟨_, _, r, _, rfl⟩
      rcases Route.generate_eq_ok_iff.mp hg with
          ⟨_, api, rest, target, id, hapi, hrest, htarget, hid, rfl⟩
      rw [hschema] at hapi
      rw [RestApi.ids_eq h hapi hrest, Function.ids_eq h htarget,
        PathResource.idOf_eq_reference h hapi hid]
      simp [prescribed, hapi]
  | static =>
      rcases StaticFile.mem_entities_iff.mp he with ⟨_, _, r, _, rfl⟩
      rcases StaticFile.generate_eq_ok_iff.mp hg with
          ⟨bucket, api, rest, id, hbucket, hapi, hrest, hid, rfl⟩
      rw [hschema] at hapi hbucket
      rw [RestApi.ids_eq h hapi hrest, PathResource.idOf_eq_reference h hapi hid, hschema]
      simp [prescribed, hapi, hbucket]
  | publication =>
      rcases Publication.mem_entities_iff.mp he with ⟨_, _, rfl⟩
      rcases Publication.generate_eq_ok_iff.mp hg with ⟨api, rest, hapi, hrest, rfl⟩
      rw [hschema] at hapi
      rw [RestApi.ids_eq h hapi hrest]
      simp [prescribed, hapi]
  | preflight =>
      rcases Preflight.mem_entities_iff.mp he with ⟨api, hapi, _, rfl⟩
      rcases Preflight.generate_eq_ok_iff.mp hg with ⟨rest, hrest, rfl⟩
      rw [RestApi.ids_eq h hapi hrest, hschema]
      rfl
  | timer =>
      rcases Timers.mem_entities_iff.mp he with ⟨t, _, rfl⟩
      rcases (Timers.generate_aws_eq_ok_iff (by rw [hschema, haws])).mp hg with
          ⟨_, function, hfunction, rfl⟩
      rw [Function.ids_eq h hfunction, hschema]
      rfl
  | domain =>
      rcases DomainAlias.mem_entities_iff.mp he with ⟨_, d, _, _, rfl⟩
      rcases DomainAlias.generate_eq_ok_iff.mp hg with ⟨api, rest, st, hapi, hrest, hst, rfl⟩
      rw [hschema] at hapi
      rw [RestApi.ids_eq h hapi hrest, Publication.stage_eq h hapi hst]
      simp [prescribed, hapi]

end Family

/-- Whatever a pass has completed, it has generated what is prescribed. -/
theorem exists_prescribed (h : History Platform.aws.producers s grants done ctx)
    (haws : s.platform = .aws) {c : Completion} (hc : c ∈ done) :
    ∃ a : Family, a.producer = c.item.producer ∧ c.item.entity ∈ a.producer.entities s ∧
      a.prescribed s grants c.item.entity = some c.generated := by
  rcases Schedule.mem_items_iff.mp (h.mem_items c hc) with ⟨hp, he⟩
  rcases Family.mem_producers_iff.mp hp with ⟨a, ha⟩
  rcases h.exists_before hc with ⟨_, before, hbefore, _, hfits⟩
  have hgenerate := hfits.generate
  rw [← ha] at he hgenerate
  exact ⟨a, ha, he, a.prescribed_eq hbefore haws he hgenerate⟩

/-- Every resource of a pass is prescribed for an entity. -/
theorem exists_prescribed_of_mem (h : History Platform.aws.producers s grants done ctx)
    (haws : s.platform = .aws) {r : Resource} (hr : r ∈ ctx.resources) :
    ∃ (a : Family) (e : Entity) (g : Generated), e ∈ a.producer.entities s ∧
      a.prescribed s grants e = some g ∧ r ∈ g.resources ∧ r.kind ∈ a.kinds := by
  rw [h.resources_eq] at hr
  rcases List.mem_flatMap.mp hr with ⟨c, hc, hrc⟩
  rcases exists_prescribed h haws hc with ⟨a, ha, he, hprescribed⟩
  rcases h.origin_of_mem hc with ⟨_, before, horigin⟩
  rw [← ha] at horigin
  exact ⟨a, _, _, he, hprescribed, hrc,
    a.kind_mem haws horigin.schema_eq he horigin.generates hrc⟩

end Aws
end InfraGraph
