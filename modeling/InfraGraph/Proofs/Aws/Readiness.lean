import InfraGraph.Proofs.Aws.Outputs
import InfraGraph.Proofs.Schema.Acceptance

/-!
# Ready items succeed, and every item becomes ready

Each AWS producer says when it may run.  In a state that a pass reaches, that is enough for all it
reads: what is not asked for directly was read by the item that is asked for.  And no set of items
waits in a circle, since paths only wait for shorter paths.  Main statements:

* `restApi_of_path_ready` — a path that is ready has the REST API above it;
* `exists_generated` — a ready item of an accepted schema generates something;
* `ready_of_all_completed` — where every ready item has been completed, every item is ready.
-/

namespace InfraGraph
namespace Aws

variable {s : Schema} {grants : Grants} {done : List Completion} {ctx : Context}

/-! ## Reading what is there -/

theorem RestApi.ids_of_has (h : History Platform.aws.producers s grants done ctx) {id : EntityId}
    (hhas : ctx.has RestApi.name id = true) : ∃ rest, RestApi.ids ctx id = .ok rest := by
  rcases Context.has_iff.mp hhas with ⟨output, hl⟩
  rcases RestApi.of_lookup h hl with ⟨api, _, rfl, _⟩
  exact ⟨_, RestApi.ids_eq_ok_iff.mpr hl⟩

theorem Function.ids_of_has (h : History Platform.aws.producers s grants done ctx) {id : String}
    (hhas : Function.isThere ctx id = true) : ∃ function, Function.ids ctx id = .ok function := by
  rcases Context.has_iff.mp hhas with ⟨output, hl⟩
  rcases Function.of_lookup h hl with ⟨rfl, _⟩
  exact ⟨_, Function.ids_eq_ok_iff.mpr hl⟩

theorem Publication.stage_of_has (h : History Platform.aws.producers s grants done ctx) {api : Api}
    (hhas : Publication.isThere ctx api = true) : ∃ st, Publication.stage ctx api = .ok st := by
  rcases Context.has_iff.mp hhas with ⟨output, hl⟩
  rcases Publication.of_lookup h hl with ⟨_, _, _, rfl, _⟩
  exact ⟨_, Publication.stage_eq_ok_iff.mpr hl⟩

theorem hasLambda_eq (h : History Platform.aws.producers s grants done ctx) (id : String) :
    ctx.hasLambda id = s.hasLambda id := by
  rw [← h.schema_eq]
  rfl

theorem RestApi.isSchemaApiThere_iff {api : Api} (hapi : ctx.schema.api = some api) :
    RestApi.isSchemaApiThere ctx = true ↔ ctx.has RestApi.name (.api api.name) = true := by
  simp [RestApi.isSchemaApiThere, Schema.apiId?, hapi, RestApi.isThere]

theorem PathResource.isReady_root {api : Api} (hapi : ctx.schema.api = some api) :
    PathResource.isReady ctx .root = true ↔ ctx.has RestApi.name (.api api.name) = true := by
  unfold PathResource.isReady
  rw [if_pos (UriPath.isRoot_iff.mpr rfl)]
  exact RestApi.isSchemaApiThere_iff hapi

theorem PathResource.isReady_of_ne_root {p : UriPath} (h : p ≠ .root) :
    PathResource.isReady ctx p = ctx.has PathResource.name (.path p) := by
  unfold PathResource.isReady
  rw [if_neg fun e => h (UriPath.isRoot_iff.mp e)]

/-! ## What was read before is still there -/

/-- A path that is ready has the REST API above it: the item that generated the path read it. -/
theorem restApi_of_path_ready (h : History Platform.aws.producers s grants done ctx) {api : Api}
    (hapi : s.api = some api) {p : UriPath} (hready : PathResource.isReady ctx p = true) :
    ctx.has RestApi.name (.api api.name) = true := by
  by_cases hroot : p = .root
  · subst hroot
    exact (PathResource.isReady_root (by rw [h.schema_eq, hapi])).mp hready
  · rw [PathResource.isReady_of_ne_root hroot] at hready
    rcases Context.has_iff.mp hready with ⟨output, hl⟩
    rcases h.exists_origin (p := PathResource.producer) (by simp [Platform.producers]) hl with
        ⟨e, g, before, ⟨hentity, hschema, hgen, hkept, _⟩, _, rfl⟩
    rcases PathResource.mem_entities_iff.mp hentity with ⟨api', hapi', q, _, rfl⟩
    rcases PathResource.generate_eq_ok_iff.mp hgen with
        ⟨_, _, api'', rest, _, _, _, hapi'', hrest, _, rfl⟩
    rw [hschema, hapi] at hapi''
    cases hapi''
    -- what that item read was there before it, and outputs stay
    exact hkept _ _ (Context.has_iff.mpr ⟨_, RestApi.ids_eq_ok_iff.mp hrest⟩)

/-- An API that is published is there. -/
theorem restApi_of_published (h : History Platform.aws.producers s grants done ctx) {api : Api}
    (hapi : s.api = some api) (hpub : Publication.isThere ctx api = true) :
    ctx.has RestApi.name (.api api.name) = true := by
  rcases Context.has_iff.mp hpub with ⟨output, hl⟩
  rcases h.exists_origin (p := Publication.producer) (by simp [Platform.producers]) hl with
      ⟨e, g, before, ⟨hentity, hschema, hgen, hkept, _⟩, _, rfl⟩
  rcases Publication.mem_entities_iff.mp hentity with ⟨_, _, rfl⟩
  rcases Publication.generate_eq_ok_iff.mp hgen with ⟨api', rest, hapi', hrest, rfl⟩
  rw [hschema, hapi] at hapi'
  cases hapi'
  exact hkept _ _ (Context.has_iff.mpr ⟨_, RestApi.ids_eq_ok_iff.mp hrest⟩)

/-- A path that is ready has a reference. -/
theorem PathResource.idOf_of_ready (h : History Platform.aws.producers s grants done ctx)
    {api : Api} (hapi : s.api = some api) {p : UriPath}
    (hready : PathResource.isReady ctx p = true) :
    ∃ id, PathResource.idOf ctx api p = .ok id := by
  by_cases hroot : p = .root
  · subst hroot
    rcases RestApi.ids_of_has h (restApi_of_path_ready h hapi hready) with ⟨rest, hrest⟩
    exact ⟨_, PathResource.idOf_root.mpr ⟨rest, hrest, rfl⟩⟩
  · rw [PathResource.isReady_of_ne_root hroot] at hready
    rcases Context.has_iff.mp hready with ⟨output, hl⟩
    rcases PathResource.of_lookup h hl with ⟨_, _, _, _, _, _, rfl, _⟩
    exact ⟨_, (PathResource.idOf_of_ne_root hroot).mpr hl⟩

/-- A lambda that is ready and known has its function. -/
theorem Function.isThere_of_ready {id : String} (hready : Function.isReady ctx id = true)
    (hlambda : ctx.hasLambda id = true) : Function.isThere ctx id = true := by
  simpa [Function.isReady, hlambda] using hready

/-! ## Ready items succeed -/

/-- A path that may run generates. -/
theorem PathResource.exists_generated (h : History Platform.aws.producers s grants done ctx)
    {api : Api} (hapi : s.api = some api) {p : UriPath} (hp : p ∈ s.routePaths)
    (hready : PathResource.producer.mayRun ctx (.path p) = true) :
    ∃ g, PathResource.producer.generate ctx (.path p) = .ok g := by
  have hne : p ≠ .root := fun e => Schema.root_not_mem_routePaths (e ▸ hp)
  rcases UriPath.exists_parent_last hne with ⟨parent, segment, hparent, hlast⟩
  -- readiness asks for the parent alone; the REST API was read for the parent
  have hparentReady : PathResource.isReady ctx parent = true := by
    simpa [PathResource.producer, hparent] using hready
  rcases RestApi.ids_of_has h (restApi_of_path_ready h hapi hparentReady) with ⟨rest, hrest⟩
  rcases PathResource.idOf_of_ready h hapi hparentReady with ⟨id, hid⟩
  exact ⟨_, PathResource.generate_eq_ok_iff.mpr
    ⟨parent, segment, api, rest, id, hparent, hlast, by rw [h.schema_eq, hapi], hrest, hid, rfl⟩⟩

/-- A route of a known lambda generates where it may run. -/
theorem Route.exists_generated (h : History Platform.aws.producers s grants done ctx)
    {api : Api} (hapi : s.api = some api) {r : DynamicRoute} (hlambda : s.hasLambda r.lambda = true)
    (hready : Route.producer.mayRun ctx (.route r) = true) :
    ∃ g, Route.producer.generate ctx (.route r) = .ok g := by
  have hlambda' : ctx.hasLambda r.lambda = true := by
    rw [hasLambda_eq h, hlambda]
  simp only [Route.producer, Bool.and_eq_true] at hready
  rcases RestApi.ids_of_has h (restApi_of_path_ready h hapi hready.2) with ⟨rest, hrest⟩
  rcases Function.ids_of_has h (Function.isThere_of_ready hready.1 hlambda') with ⟨target, htarget⟩
  rcases PathResource.idOf_of_ready h hapi hready.2 with ⟨id, hid⟩
  exact ⟨_, Route.generate_eq_ok_iff.mpr
    ⟨hlambda', api, rest, target, id, by rw [h.schema_eq, hapi], hrest, htarget, hid, rfl⟩⟩

theorem StaticFile.exists_generated (h : History Platform.aws.producers s grants done ctx)
    {api : Api} (hapi : s.api = some api) {bucket : String} (hbucket : s.bucket = some bucket)
    {r : StaticRoute} (hready : StaticFile.producer.mayRun ctx (.static r) = true) :
    ∃ g, StaticFile.producer.generate ctx (.static r) = .ok g := by
  simp only [StaticFile.producer] at hready
  rcases RestApi.ids_of_has h (restApi_of_path_ready h hapi hready) with ⟨rest, hrest⟩
  rcases PathResource.idOf_of_ready h hapi hready with ⟨id, hid⟩
  exact ⟨_, StaticFile.generate_eq_ok_iff.mpr
    ⟨bucket, api, rest, id, by rw [h.schema_eq, hbucket], by rw [h.schema_eq, hapi], hrest, hid,
      rfl⟩⟩

theorem Publication.exists_generated (h : History Platform.aws.producers s grants done ctx)
    {api : Api} (hapi : s.api = some api) {d : Deployment}
    (hready : Publication.producer.mayRun ctx (.deployment d) = true) :
    ∃ g, Publication.producer.generate ctx (.deployment d) = .ok g := by
  have hapi' : ctx.schema.api = some api := by rw [h.schema_eq, hapi]
  rcases RestApi.ids_of_has h ((RestApi.isSchemaApiThere_iff hapi').mp hready) with ⟨rest, hrest⟩
  exact ⟨_, Publication.generate_eq_ok_iff.mpr ⟨api, rest, hapi', hrest, rfl⟩⟩

theorem Preflight.exists_generated (h : History Platform.aws.producers s grants done ctx)
    {api : Api} (hready : Preflight.producer.mayRun ctx (.api api) = true) :
    ∃ g, Preflight.producer.generate ctx (.api api) = .ok g := by
  simp only [Preflight.producer, Bool.and_eq_true] at hready
  rcases RestApi.ids_of_has h hready.2 with ⟨rest, hrest⟩
  exact ⟨_, Preflight.generate_eq_ok_iff.mpr ⟨rest, hrest, rfl⟩⟩

theorem EventRule.exists_generated (h : History Platform.aws.producers s grants done ctx)
    (haws : s.platform = .aws) {t : Timer} (hlambda : s.hasLambda t.lambda = true)
    (hready : Timers.producer.mayRun ctx (.timer t) = true) :
    ∃ g, Timers.producer.generate ctx (.timer t) = .ok g := by
  have hplatform : ctx.schema.platform = .aws := by rw [h.schema_eq, haws]
  have hlambda' : ctx.hasLambda t.lambda = true := by
    rw [hasLambda_eq h, hlambda]
  simp only [Timers.producer, hplatform] at hready
  rcases Function.ids_of_has h (Function.isThere_of_ready hready hlambda') with
      ⟨function, hfunction⟩
  exact ⟨_, (Timers.generate_aws_eq_ok_iff hplatform).mpr ⟨hlambda', function, hfunction, rfl⟩⟩

/-- An alias that may run generates. -/
theorem DomainAlias.exists_generated (h : History Platform.aws.producers s grants done ctx)
    {api : Api} (hapi : s.api = some api) {d : DnsAlias}
    (hready : DomainAlias.producer.mayRun ctx (.dns d) = true) :
    ∃ g, DomainAlias.producer.generate ctx (.dns d) = .ok g := by
  have hapi' : ctx.schema.api = some api := by rw [h.schema_eq, hapi]
  -- readiness asks for the deployment alone; the REST API was read for it
  have hpub : Publication.isThere ctx api = true := by
    simpa [DomainAlias.producer, hapi'] using hready
  rcases RestApi.ids_of_has h (restApi_of_published h hapi hpub) with ⟨rest, hrest⟩
  rcases Publication.stage_of_has h hpub with ⟨st, hst⟩
  exact ⟨_, DomainAlias.generate_eq_ok_iff.mpr ⟨api, rest, st, hapi', hrest, hst, rfl⟩⟩

/-- A ready item of an accepted schema generates something. -/
theorem exists_generated (h : History Platform.aws.producers s grants done ctx)
    (haws : s.platform = .aws) (haccepted : s.Accepted) {item : WorkItem}
    (hitem : item ∈ Schedule.items Platform.aws.producers s) (hready : item.ready ctx = true) :
    ∃ g, item.producer.generate ctx item.entity = .ok g := by
  rcases item with ⟨p, e⟩
  rcases Schedule.mem_items_iff.mp hitem with ⟨hp, he⟩
  simp only at hp he
  simp only [WorkItem.ready] at hready ⊢
  simp only [Platform.producers, List.mem_cons, List.not_mem_nil, or_false] at hp
  rcases hp with rfl | rfl | rfl | rfl | rfl | rfl | rfl | rfl | rfl
  · rcases RestApi.mem_entities_iff.mp he with ⟨api, _, rfl⟩
    exact ⟨_, RestApi.generate_eq_ok_iff.mpr rfl⟩
  · rcases PathResource.mem_entities_iff.mp he with ⟨api, hapi, p, hp, rfl⟩
    exact PathResource.exists_generated h hapi hp hready
  · rcases Function.mem_entities_iff.mp he with ⟨id, l, _, rfl⟩
    exact ⟨_, Function.generate_eq_ok_iff.mpr rfl⟩
  · rcases Route.mem_entities_iff.mp he with ⟨api, hapi, r, hr, rfl⟩
    exact Route.exists_generated h hapi (haccepted.route_lambda r hr) hready
  · rcases StaticFile.mem_entities_iff.mp he with ⟨api, hapi, r, hr, rfl⟩
    rcases haccepted.static_bucket r hr with ⟨bucket, hbucket⟩
    exact StaticFile.exists_generated h hapi hbucket hready
  · rcases Publication.mem_entities_iff.mp he with ⟨api, hapi, rfl⟩
    exact Publication.exists_generated h hapi hready
  · rcases Preflight.mem_entities_iff.mp he with ⟨api, _, _, rfl⟩
    exact Preflight.exists_generated h hready
  · rcases Timers.mem_entities_iff.mp he with ⟨t, ht, rfl⟩
    exact EventRule.exists_generated h haws (haccepted.timer_lambda t ht) hready
  · rcases DomainAlias.mem_entities_iff.mp he with ⟨api, d, hapi, _, rfl⟩
    exact DomainAlias.exists_generated h hapi hready

/-! ## No item waits forever -/

/-- Every item that is ready has been completed. -/
def AllReadyCompleted (s : Schema) (done : List Completion) (ctx : Context) : Prop :=
  ∀ i ∈ Schedule.items Platform.aws.producers s, i.ready ctx = true → ∃ c ∈ done, c.item = i

/-- Where all that is ready has been completed, the REST API is there. -/
theorem restApi_there (h : History Platform.aws.producers s grants done ctx)
    (hall : AllReadyCompleted s done ctx) {api : Api} (hapi : s.api = some api) :
    ctx.has RestApi.name (.api api.name) = true := by
  have hitem : ⟨RestApi.producer, .api api⟩ ∈ Schedule.items Platform.aws.producers s :=
    Schedule.mem_items_iff.mpr
      ⟨by simp [Platform.producers], RestApi.mem_entities_iff.mpr ⟨api, hapi, rfl⟩⟩
  exact h.has_of_completed (hall _ hitem rfl)

theorem function_ready (h : History Platform.aws.producers s grants done ctx)
    (hall : AllReadyCompleted s done ctx) (id : String) : Function.isReady ctx id = true := by
  cases hlambda : ctx.hasLambda id with
  -- an id that names no lambda counts as ready, and its route then fails
  | false => simp [Function.isReady, hlambda]
  | true =>
      rcases Option.isSome_iff_exists.mp hlambda with ⟨l, hl⟩
      rw [h.schema_eq, OrderedMap.get?_eq_some_iff] at hl
      have hitem : ⟨Function.producer, .lambda id l⟩ ∈ Schedule.items Platform.aws.producers s :=
        Schedule.mem_items_iff.mpr
          ⟨by simp [Platform.producers], Function.mem_entities_iff.mpr ⟨id, l, hl, rfl⟩⟩
      have hthere := h.has_of_completed (hall _ hitem rfl)
      have hthere' : Function.isThere ctx id = true := hthere
      simp [Function.isReady, hthere']

/-- Paths wait for shorter paths only, so all of them become ready, the shortest first. -/
theorem path_ready (h : History Platform.aws.producers s grants done ctx)
    (hall : AllReadyCompleted s done ctx) {api : Api} (hapi : s.api = some api) {p : UriPath}
    (hp : p = .root ∨ p ∈ s.routePaths) : PathResource.isReady ctx p = true := by
  induction hn : p.segments.length using Nat.strongRecOn generalizing p with
  | _ n ih =>
      subst hn
      by_cases hroot : p = .root
      · subst hroot
        exact (PathResource.isReady_root (by rw [h.schema_eq, hapi])).mpr
          (restApi_there h hall hapi)
      · have hmem : p ∈ s.routePaths := hp.resolve_left hroot
        rcases UriPath.exists_parent_last hroot with ⟨parent, segment, hparent, _⟩
        have hparentReady : PathResource.isReady ctx parent = true :=
          ih _ (UriPath.length_parent_lt hparent) (Schema.parent_mem_routePaths hmem hparent) rfl
        have hitem : ⟨PathResource.producer, .path p⟩ ∈
            Schedule.items Platform.aws.producers s :=
          Schedule.mem_items_iff.mpr
            ⟨by simp [Platform.producers],
              PathResource.mem_entities_iff.mpr ⟨api, hapi, p, hmem, rfl⟩⟩
        -- the item of the path waits for its parent, which is shorter
        have hready : WorkItem.ready ⟨PathResource.producer, .path p⟩ ctx = true := by
          simpa [WorkItem.ready, PathResource.producer, hparent] using hparentReady
        rw [PathResource.isReady_of_ne_root hroot]
        exact h.has_of_completed (hall _ hitem hready)

theorem published (h : History Platform.aws.producers s grants done ctx)
    (hall : AllReadyCompleted s done ctx) {api : Api} (hapi : s.api = some api) :
    Publication.isThere ctx api = true := by
  have hitem : ⟨Publication.producer, .deployment api.resolvedDeployment⟩ ∈
      Schedule.items Platform.aws.producers s :=
    Schedule.mem_items_iff.mpr
      ⟨by simp [Platform.producers], Publication.mem_entities_iff.mpr ⟨api, hapi, rfl⟩⟩
  have hready : RestApi.isSchemaApiThere ctx = true :=
    (RestApi.isSchemaApiThere_iff (by rw [h.schema_eq, hapi])).mpr (restApi_there h hall hapi)
  exact h.has_of_completed (hall _ hitem hready)

/-- Where every ready item has been completed, every item is ready, whether the schema is accepted
or not. -/
theorem ready_of_all_completed (h : History Platform.aws.producers s grants done ctx)
    (haws : s.platform = .aws) (hall : AllReadyCompleted s done ctx) {item : WorkItem}
    (hitem : item ∈ Schedule.items Platform.aws.producers s) : item.ready ctx = true := by
  rcases item with ⟨p, e⟩
  rcases Schedule.mem_items_iff.mp hitem with ⟨hp, he⟩
  simp only at hp he
  simp only [WorkItem.ready]
  simp only [Platform.producers, List.mem_cons, List.not_mem_nil, or_false] at hp
  rcases hp with rfl | rfl | rfl | rfl | rfl | rfl | rfl | rfl | rfl
  · rfl
  · rcases PathResource.mem_entities_iff.mp he with ⟨api, hapi, p, hp, rfl⟩
    have hne : p ≠ .root := fun e => Schema.root_not_mem_routePaths (e ▸ hp)
    rcases UriPath.exists_parent_last hne with ⟨parent, _, hparent, _⟩
    have hparentReady := path_ready h hall hapi (Schema.parent_mem_routePaths hp hparent)
    simpa [PathResource.producer, hparent] using hparentReady
  · rfl
  · rcases Route.mem_entities_iff.mp he with ⟨api, hapi, r, hr, rfl⟩
    simp only [Route.producer, Bool.and_eq_true]
    exact ⟨function_ready h hall r.lambda,
      path_ready h hall hapi (Schema.mem_routePaths_of_mem_paths (Schema.dynamic_path_mem hr))⟩
  · rcases StaticFile.mem_entities_iff.mp he with ⟨api, hapi, r, hr, rfl⟩
    exact path_ready h hall hapi (Schema.mem_routePaths_of_mem_paths (Schema.static_path_mem hr))
  · rcases Publication.mem_entities_iff.mp he with ⟨api, hapi, rfl⟩
    exact (RestApi.isSchemaApiThere_iff (by rw [h.schema_eq, hapi])).mpr (restApi_there h hall hapi)
  · rcases Preflight.mem_entities_iff.mp he with ⟨api, hapi, hcors, rfl⟩
    simp only [Preflight.producer, Bool.and_eq_true]
    exact ⟨hcors, restApi_there h hall hapi⟩
  · rcases Timers.mem_entities_iff.mp he with ⟨t, _, rfl⟩
    simp only [Timers.producer, h.schema_eq, haws]
    exact function_ready h hall t.lambda
  · rcases DomainAlias.mem_entities_iff.mp he with ⟨api, d, hapi, _, rfl⟩
    simp only [DomainAlias.producer, h.schema_eq, hapi]
    exact published h hall hapi

end Aws
end InfraGraph
