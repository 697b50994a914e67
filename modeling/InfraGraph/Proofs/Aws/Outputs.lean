import InfraGraph.Proofs.Aws.Producers
import InfraGraph.Proofs.Entity
import InfraGraph.Proofs.Generation.Origin

/-!
# What the AWS producers have published

An output that stands under the name of an AWS producer is of the sort that its readers expect, and
it holds the references that names alone would give: outputs and names never disagree.  The
resource that an output refers to has been emitted with it.  One statement for each output that is
read:

* `RestApi.of_lookup`, `PathResource.of_lookup`, `Function.of_lookup`, `Publication.of_lookup`.
-/

namespace InfraGraph
namespace Aws

variable {s : Schema} {grants : Grants} {done : List Completion} {ctx : Context} {output : Output}

/-- An output stored for an API is that of the REST API of the schema. -/
theorem RestApi.of_lookup (h : History Platform.aws.producers s grants done ctx) {id : EntityId}
    (hl : ctx.lookup? RestApi.name id = some output) :
    ∃ api, s.api = some api ∧ output = .restApi (RestApi.idsOf (RestApi.resource s api)) ∧
      RestApi.resource s api ∈ ctx.resources := by
  rcases h.exists_origin (p := RestApi.producer) (by simp [Platform.producers]) hl with
      ⟨e, g, before, ⟨hentity, hschema, hgen, _, hres⟩, _, rfl⟩
  rcases RestApi.mem_entities_iff.mp hentity with ⟨api, hapi, rfl⟩
  rw [RestApi.generate_eq_ok_iff, hschema] at hgen
  subst hgen
  exact ⟨api, hapi, rfl, hres _ (by simp [RestApi.generated])⟩

theorem PathResource.reference_of_ne_root {api : Api} {rest : RestApiIds} {p : UriPath}
    (h : p ≠ .root) : PathResource.reference api rest p =
      PathResource.kind ++ "." ++ PathResource.resourceName api p ++ ".id" := by
  unfold PathResource.reference
  rw [if_neg fun e => h (UriPath.isRoot_iff.mp e)]

/-- An output stored for a path refers to the resource of the path by name. -/
theorem PathResource.of_lookup (h : History Platform.aws.producers s grants done ctx)
    {p : UriPath} (hl : ctx.lookup? PathResource.name (.path p) = some output) :
    ∃ api rest parentId segment, s.api = some api ∧ p ∈ s.routePaths ∧
      output = .pathResource ((PathResource.resource api rest parentId p segment).attr "id") ∧
      PathResource.resource api rest parentId p segment ∈ ctx.resources := by
  rcases h.exists_origin (p := PathResource.producer) (by simp [Platform.producers]) hl with
      ⟨e, g, before, ⟨hentity, hschema, hgen, _, hres⟩, hid, rfl⟩
  rcases PathResource.mem_entities_iff.mp hentity with ⟨api, hapi, q, hq, rfl⟩
  -- the id of the entity tells the path it was generated for
  cases EntityId.path_injective hid
  rcases PathResource.generate_eq_ok_iff.mp hgen with
      ⟨parent, segment, api', rest, parentId, _, _, hapi', _, _, rfl⟩
  rw [hschema, hapi] at hapi'
  cases hapi'
  exact ⟨api, rest, parentId, segment, hapi, hq, rfl, hres _ (by simp [PathResource.generated])⟩

/-- References to the function of a lambda, from names alone. -/
def Function.idsFor (s : Schema) (id : String) : FunctionIds :=
  ⟨Name.cloud [s.name, id], Function.functionKind ++ "." ++ Name.identifier [id] ++ "." ++ "arn",
    Function.functionKind ++ "." ++ Name.identifier [id] ++ "." ++ "invoke_arn"⟩

/-- An output stored for a lambda has the names of its function. -/
theorem Function.of_lookup (h : History Platform.aws.producers s grants done ctx) {id : String}
    (hl : ctx.lookup? Function.name (.lambda id) = some output) :
    output = .function (Function.idsFor s id) ∧
      ∃ r ∈ ctx.resources, r.kind = Function.functionKind ∧ r.name = Name.identifier [id] := by
  rcases h.exists_origin (p := Function.producer) (by simp [Platform.producers]) hl with
      ⟨e, g, before, ⟨hentity, hschema, hgen, _, hres⟩, hid, rfl⟩
  rcases Function.mem_entities_iff.mp hentity with ⟨id', l, _, rfl⟩
  -- the id of the entity tells the lambda
  cases EntityId.lambda_injective hid
  rw [Function.generate_eq_ok_iff] at hgen
  subst hgen
  refine ⟨?_, _, hres _ (List.mem_cons_of_mem _ (List.mem_cons_of_mem _ List.mem_cons_self)),
    rfl, rfl⟩
  rw [← hschema]
  rfl

/-- An output stored for a deployment has the stage of the API. -/
theorem Publication.of_lookup (h : History Platform.aws.producers s grants done ctx)
    {id : EntityId} (hl : ctx.lookup? Publication.name id = some output) :
    ∃ api rest, s.api = some api ∧
      output = .deployment ⟨api.resolvedDeployment.version,
        (Publication.resource api rest api.resolvedDeployment).address⟩ ∧
      Publication.resource api rest api.resolvedDeployment ∈ ctx.resources := by
  rcases h.exists_origin (p := Publication.producer) (by simp [Platform.producers]) hl with
      ⟨e, g, before, ⟨hentity, hschema, hgen, _, hres⟩, _, rfl⟩
  rcases Publication.mem_entities_iff.mp hentity with ⟨api, hapi, rfl⟩
  rcases Publication.generate_eq_ok_iff.mp hgen with ⟨api', rest, hapi', _, rfl⟩
  rw [hschema, hapi] at hapi'
  cases hapi'
  exact ⟨api, rest, hapi, rfl, hres _ (by simp [Publication.generated])⟩

end Aws
end InfraGraph
