import InfraGraph.Proofs.Aws.Labels
import InfraGraph.Proofs.Aws.Links

/-!
# The AWS graph is closed

What a producer reads from the state refers to resources that are there, so what it generates is
linked to them; and where everything has been completed, the path resources that handlers refer to
are there as well.  Main statements:

* `backed_ids`, `backed_idOf`, `backed_function`, `backed_stage` — what is read is backed;
* `linked_generated`, `linked_of_history` — one item, and a whole pass;
* `closed_of_completed` — a pass that completes everything leaves a closed graph.
-/

namespace InfraGraph
namespace Aws

open Resource

variable {s : Schema} {grants : Grants} {done : List Completion} {ctx : Context}

/-! ## What is read is backed -/

/-- What is stored for an API refers to the REST API, which no method is part of. -/
theorem backed_ids (h : History Platform.aws.producers s grants done ctx) {id : EntityId}
    {rest : RestApiIds} (hids : RestApi.ids ctx id = .ok rest) : BackedIds ctx.resources rest := by
  rcases RestApi.of_lookup h (RestApi.ids_eq_ok_iff.mp hids) with ⟨api, _, he, hmem⟩
  cases he
  have hplain : ¬RestApi.kind ∈ answerKinds := by decide
  exact ⟨backed_attr hmem hplain (by decide), backed_attr hmem hplain (by decide)⟩

/-- The reference of a path leads to a resource that is there, and is no answer. -/
theorem backed_idOf (h : History Platform.aws.producers s grants done ctx) {api : Api} {p : UriPath}
    {id : String} (hid : PathResource.idOf ctx api p = .ok id) : Backed ctx.resources id := by
  by_cases hroot : p = .root
  · subst hroot
    rcases PathResource.idOf_root.mp hid with ⟨rest, hrest, rfl⟩
    exact (backed_ids h hrest).root
  · rcases PathResource.of_lookup h ((PathResource.idOf_of_ne_root hroot).mp hid) with
        ⟨_, _, _, _, _, _, he, hmem⟩
    cases he
    have hplain : ¬PathResource.kind ∈ answerKinds := by decide
    exact backed_attr hmem hplain (by decide)

/-- What is stored for a lambda refers to its function. -/
theorem backed_function (h : History Platform.aws.producers s grants done ctx) {id : String}
    {function : FunctionIds} (hids : Function.ids ctx id = .ok function) :
    Backed ctx.resources function.arn ∧ Backed ctx.resources function.invokeArn := by
  rcases Function.of_lookup h (Function.ids_eq_ok_iff.mp hids) with ⟨he, r, hmem, hkind, hname⟩
  cases he
  have hplain : ¬IsAnswer r := by
    rw [IsAnswer, hkind]
    decide
  -- the output was written from names; its texts are attributes of the function
  have hattr : ∀ part, Function.functionKind ++ "." ++ Name.identifier [id] ++ "." ++ part =
      r.attr part := by
    intro part
    rw [Resource.attr, Resource.address, hkind, hname]
  exact ⟨⟨r, hmem, hplain, "arn", by decide, hattr _⟩,
    ⟨r, hmem, hplain, "invoke_arn", by decide, hattr _⟩⟩

/-- The stage that is stored for an API belongs to a deployment that is there. -/
theorem backed_stage (h : History Platform.aws.producers s grants done ctx) {api : Api} {st : Stage}
    (hst : Publication.stage ctx api = .ok st) :
    ∃ t ∈ ctx.resources, ¬IsAnswer t ∧ t.address = st.deployment := by
  rcases Publication.of_lookup h (Publication.stage_eq_ok_iff.mp hst) with ⟨_, _, _, he, hmem⟩
  cases he
  have hplain : ¬Publication.kind ∈ answerKinds := by decide
  exact ⟨_, hmem, hplain, rfl⟩

/-! ## A whole pass is linked -/

/-- What one item generates is linked to what is there. -/
theorem linked_generated (h : History Platform.aws.producers s grants done ctx)
    (haws : s.platform = .aws) {p : Producer} (hp : p ∈ Platform.aws.producers) {e : Entity}
    (he : e ∈ p.entities s) {g : Generated} (hg : p.generate ctx e = .ok g) :
    LinkedAfter IsAnswer (Promised s) ctx.resources g.resources := by
  have hschema := h.schema_eq
  rcases Family.mem_producers_iff.mp hp with ⟨family, rfl⟩
  cases family with
  | restApi =>
      rcases RestApi.mem_entities_iff.mp he with ⟨api, _, rfl⟩
      rw [RestApi.generate_eq_ok_iff.mp hg, hschema]
      exact RestApi.linked api
  | path =>
      rcases PathResource.mem_entities_iff.mp he with ⟨_, _, p, _, rfl⟩
      rcases PathResource.generate_eq_ok_iff.mp hg with ⟨_, _, _, _, _, _, _, _, hrest, hid, rfl⟩
      exact PathResource.linked (backed_ids h hrest) (backed_idOf h hid)
  | function =>
      rcases Function.mem_entities_iff.mp he with ⟨id, l, _, rfl⟩
      rw [Function.generate_eq_ok_iff.mp hg]
      exact Function.linked ctx id l
  | route =>
      rcases Route.mem_entities_iff.mp he with ⟨_, _, r, _, rfl⟩
      rcases Route.generate_eq_ok_iff.mp hg with ⟨_, _, _, _, _, _, hrest, htarget, hid, rfl⟩
      exact Route.linked (backed_ids h hrest) (backed_function h htarget).2 (backed_idOf h hid)
  | static =>
      rcases StaticFile.mem_entities_iff.mp he with ⟨_, _, r, _, rfl⟩
      rcases StaticFile.generate_eq_ok_iff.mp hg with ⟨_, _, _, _, _, _, hrest, hid, rfl⟩
      rw [hschema]
      exact StaticFile.linked (backed_ids h hrest) (backed_idOf h hid)
  | publication =>
      rcases Publication.mem_entities_iff.mp he with ⟨_, _, rfl⟩
      rcases Publication.generate_eq_ok_iff.mp hg with ⟨_, _, _, hrest, rfl⟩
      exact Publication.linked (backed_ids h hrest)
  | preflight =>
      rcases Preflight.mem_entities_iff.mp he with ⟨api, hapi, _, rfl⟩
      rcases Preflight.generate_eq_ok_iff.mp hg with ⟨_, hrest, rfl⟩
      rw [hschema]
      exact Preflight.linked hapi (backed_ids h hrest)
  | timer =>
      rcases Timers.mem_entities_iff.mp he with ⟨t, _, rfl⟩
      rcases (Timers.generate_aws_eq_ok_iff (by rw [hschema, haws])).mp hg with
          ⟨_, _, hfunction, rfl⟩
      rw [hschema]
      exact EventRule.linked (backed_function h hfunction).1
  | domain =>
      rcases DomainAlias.mem_entities_iff.mp he with ⟨_, d, _, _, rfl⟩
      rcases DomainAlias.generate_eq_ok_iff.mp hg with ⟨_, _, _, _, hrest, hst, rfl⟩
      exact DomainAlias.linked (backed_ids h hrest) (backed_stage h hst)

/-- Everything that a pass has emitted is linked. -/
theorem linked_of_history (h : History Platform.aws.producers s grants done ctx)
    (haws : s.platform = .aws) : LinkedAfter IsAnswer (Promised s) [] ctx.resources := by
  induction h with
  | start => trivial
  | step hist hitem hfits ih =>
      rcases Schedule.mem_items_iff.mp hitem with ⟨hp, he⟩
      -- the new resources are linked to all that the history has left
      rw [Completion.resources_commit, linkedAfter_append]
      exact ⟨ih, linked_generated hist haws hp he hfits.generate⟩

/-- Everything that a history has emitted can be told from its address. -/
theorem addressable_of_history (h : History Platform.aws.producers s grants done ctx)
    (haws : s.platform = .aws) : ∀ r ∈ ctx.resources, r.Addressable := by
  intro r hr
  rw [h.resources_eq] at hr
  rcases List.mem_flatMap.mp hr with ⟨c, hc, hmem⟩
  rcases h.origin_of_mem hc with ⟨hp, _, horigin⟩
  exact addressable hp haws horigin.schema_eq horigin.entity_mem horigin.generates r hmem

/-- A pass that completes everything leaves a closed graph. -/
theorem closed_of_completed (h : History Platform.aws.producers s grants done ctx)
    (haws : s.platform = .aws)
    (hall : ∀ i ∈ Schedule.items Platform.aws.producers s, ∃ c ∈ done, c.item = i) :
    Closed ctx.resources := by
  refine closed_of_linked h.addresses_nodup (addressable_of_history h haws)
    (linked_of_history h haws) ?_
  rintro ref ⟨api, p, hapi, hp, rfl⟩
  -- the promised path resource is among the completed items
  have he : Entity.path p ∈ Family.path.producer.entities s :=
    PathResource.mem_entities_iff.mpr ⟨api, hapi, p, hp, rfl⟩
  have hl : (PathResource.kind, PathResource.resourceName api p) ∈
      Family.path.labels s (.path p) := by
    simp [Family.labels, PathResource.labels, hapi]
  rcases exists_completion_of_label haws h hall he hl with ⟨c, hc, _, r, hr, hlabel⟩
  rcases Prod.mk.inj hlabel with ⟨hkind, hname⟩
  have hplain : ¬IsAnswer r := by
    rw [IsAnswer, hkind]
    decide
  refine ⟨r, h.mem_resources hc hr, hplain, "id", by decide, ?_⟩
  rw [Resource.attr, Resource.address, hkind, hname]

end Aws
end InfraGraph
