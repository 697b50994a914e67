import InfraGraph.Proofs.Azure.Closed

/-!
# What Azure items generate, from names alone

The binding of a route reads the address of an app from the state of a pass, where names alone would
give the same.  Main statements:

* `Azure.prescribed` — what is generated for an entity, from names and grants;
* `Azure.prescribed_eq`, `Azure.prescribed_of_mem` — every state of a pass generates just that.
-/

namespace InfraGraph
namespace Azure

variable {s : Schema} {grants : Grants} {done : List Completion} {ctx : Context} {e : Entity}
  {g : Generated}

/-- What is generated for an entity, from names and grants; the parts of an API have nothing. -/
def prescribed (s : Schema) (grants : Grants) : Entity → Option Generated
  | .lambda id l => some (FunctionApp.generateFor (.initial s grants) id l)
  | .route r => do
      let l ← s.lambdas.get? r.lambda
      return HttpBinding.generated l r (FunctionApp.idsFor s r.lambda)
  | .timer t => do
      let l ← s.lambdas.get? t.lambda
      return TimerBinding.generateFor l t
  | _ => none

/-- Every state of a pass generates what is prescribed. -/
theorem prescribed_eq (h : History Platform.azure.producers s grants done ctx)
    (hazure : s.platform = .azure) {p : Producer} (hp : p ∈ Platform.azure.producers)
    (he : e ∈ p.entities s) (hg : p.generate ctx e = .ok g) : prescribed s grants e = some g := by
  have hschema := h.schema_eq
  simp only [Platform.producers, List.mem_cons, List.not_mem_nil, or_false] at hp
  rcases hp with rfl | rfl | rfl
  · rcases FunctionApp.mem_entities_iff.mp he with ⟨id, l, _, rfl⟩
    rw [FunctionApp.generate_eq_ok_iff.mp hg]
    simp only [prescribed, FunctionApp.generateFor, hschema, h.grants_eq]
    rfl
  · rcases HttpBinding.mem_entities_iff.mp he with ⟨r, _, rfl⟩
    rcases HttpBinding.generate_eq_ok_iff.mp hg with ⟨l, app, hl, happ, rfl⟩
    rw [hschema] at hl
    rw [(FunctionApp.of_lookup h happ).1]
    simp [prescribed, hl]
  · rcases Timers.mem_entities_iff.mp he with ⟨t, _, rfl⟩
    rcases (Timers.generate_azure_eq_ok_iff (by rw [hschema, hazure])).mp hg with ⟨l, hl, rfl⟩
    rw [hschema] at hl
    simp [prescribed, hl]

/-- Whatever a pass has completed, it has generated what is prescribed. -/
theorem prescribed_of_mem (h : History Platform.azure.producers s grants done ctx)
    (hazure : s.platform = .azure) {c : Completion} (hc : c ∈ done) :
    prescribed s grants c.item.entity = some c.generated := by
  rcases Schedule.mem_items_iff.mp (h.mem_items c hc) with ⟨hp, he⟩
  rcases h.exists_before hc with ⟨_, before, hbefore, _, hfits⟩
  exact prescribed_eq hbefore hazure hp he hfits.generate

end Azure
end InfraGraph
