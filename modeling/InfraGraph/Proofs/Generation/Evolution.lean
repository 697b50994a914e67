import InfraGraph.Proofs.Aws.Completion
import InfraGraph.Proofs.Azure.Completion
import InfraGraph.Proofs.Generation.Prescription
import InfraGraph.Proofs.Resource.Growth

/-!
# Schemas that grow

What is generated for a lambda, a route or a timer does not depend on the others.  Path resources
and preflight handlers do depend on the paths of all routes, but more routes only add to them.  So a
schema that grows keeps all of its resources, and a plan against the graph stored before only
creates.  Main statements:

* `Schema.PartOf` — a schema whose lambdas, routes and timers all occur in another one;
* `Schema.PartOf.prescribed_subset` — its items emit no less there;
* `Schema.additive_evolution` — its resources occur there, and what a plan says of them.
-/

namespace InfraGraph
namespace Schema

/-- Another schema of the same application and API has every lambda, route and timer of this one,
in any order, and maybe more. -/
structure PartOf (s s' : Schema) : Prop where
  name_eq : s.name = s'.name
  description_eq : s.description = s'.description
  platform_eq : s.platform = s'.platform
  region_eq : s.region = s'.region
  account_eq : s.account = s'.account
  bucket_eq : s.bucket = s'.bucket
  api_eq : s.api = s'.api
  lambdas : s.lambdas.entries ⊆ s'.lambdas.entries
  dynamic : s.routes.dynamic ⊆ s'.routes.dynamic
  static : s.routes.static ⊆ s'.routes.static
  timers : s.timers ⊆ s'.timers

namespace PartOf

variable {s s' : Schema} (h : s.PartOf s')

include h

/-- Both schemas describe the same application and API. -/
theorem frame_eq : s.frame = s'.frame :=
  frame_eq_iff.mpr ⟨h.name_eq, h.description_eq, h.platform_eq, h.region_eq, h.account_eq,
    h.bucket_eq, h.api_eq⟩

/-! ## Items -/

theorem paths : s.routes.paths ⊆ s'.routes.paths := by
  intro p hp
  refine List.mem_append.mpr ((List.mem_append.mp hp).imp ?_ ?_)
  · exact fun hdynamic => List.map_subset _ h.dynamic hdynamic
  · exact fun hstatic => List.map_subset _ h.static hstatic

/-- More routes have no fewer paths above them. -/
theorem routePaths {p : UriPath} (hp : p ∈ s.routePaths) : p ∈ s'.routePaths := by
  rcases mem_routePaths_iff.mp hp with ⟨q, hq, hpq⟩
  exact mem_routePaths_iff.mpr ⟨q, h.paths hq, hpq⟩

theorem servedPaths {p : UriPath} (hp : p ∈ s.servedPaths) : p ∈ s'.servedPaths :=
  mem_servedPaths_iff.mpr ((mem_servedPaths_iff.mp hp).imp_right fun hpath => h.paths hpath)

/-- Every entity that a family finds in the smaller schema is in the larger one. -/
theorem entities_aws (a : Aws.Family) {e : Entity} (he : e ∈ a.producer.entities s) :
    e ∈ a.producer.entities s' := by
  cases a with
  | restApi | publication | preflight | domain =>
      rw [Aws.Family.entities_eq_frame (by decide), h.frame_eq] at he
      rw [Aws.Family.entities_eq_frame (by decide)]
      exact he
  | path =>
      rcases Aws.PathResource.mem_entities_iff.mp he with ⟨api, hapi, p, hp, rfl⟩
      exact Aws.PathResource.mem_entities_iff.mpr ⟨api, h.api_eq ▸ hapi, p, h.routePaths hp, rfl⟩
  | function =>
      rcases Aws.Function.mem_entities_iff.mp he with ⟨id, l, hl, rfl⟩
      exact Aws.Function.mem_entities_iff.mpr ⟨id, l, h.lambdas hl, rfl⟩
  | route =>
      rcases Aws.Route.mem_entities_iff.mp he with ⟨api, hapi, r, hr, rfl⟩
      exact Aws.Route.mem_entities_iff.mpr ⟨api, h.api_eq ▸ hapi, r, h.dynamic hr, rfl⟩
  | static =>
      rcases Aws.StaticFile.mem_entities_iff.mp he with ⟨api, hapi, r, hr, rfl⟩
      exact Aws.StaticFile.mem_entities_iff.mpr ⟨api, h.api_eq ▸ hapi, r, h.static hr, rfl⟩
  | timer =>
      rcases Timers.mem_entities_iff.mp he with ⟨t, ht, rfl⟩
      exact Timers.mem_entities_iff.mpr ⟨t, h.timers ht, rfl⟩

/-- Every item of the smaller schema is one of the larger. -/
theorem items :
    Schedule.items s.platform.producers s ⊆ Schedule.items s'.platform.producers s' := by
  rintro ⟨p, e⟩ hitem
  rw [← h.platform_eq]
  obtain ⟨hp, he⟩ := Schedule.mem_items_iff.mp hitem
  refine Schedule.mem_items_iff.mpr ⟨hp, ?_⟩
  cases hplatform : s.platform with
  | aws =>
      rw [hplatform] at hp
      obtain ⟨a, rfl⟩ := Aws.Family.mem_producers_iff.mp hp
      exact h.entities_aws a he
  | azure =>
      rw [hplatform] at hp
      simp only [Platform.producers, List.mem_cons, List.not_mem_nil, or_false] at hp
      rcases hp with rfl | rfl | rfl
      · rcases Azure.FunctionApp.mem_entities_iff.mp he with ⟨id, l, hl, rfl⟩
        exact Azure.FunctionApp.mem_entities_iff.mpr ⟨id, l, h.lambdas hl, rfl⟩
      · rcases Azure.HttpBinding.mem_entities_iff.mp he with ⟨r, hr, rfl⟩
        exact Azure.HttpBinding.mem_entities_iff.mpr ⟨r, h.dynamic hr, rfl⟩
      · rcases Timers.mem_entities_iff.mp he with ⟨t, ht, rfl⟩
        exact Timers.mem_entities_iff.mpr ⟨t, h.timers ht, rfl⟩

/-! ## What items emit -/

/-- A lambda has the same grants in both. -/
theorem grants_eq {library : List Declaration} {grants grants' : Grants}
    (hgrants : s.grants library = .ok grants) (hgrants' : s'.grants library = .ok grants')
    {id : String} {l : Lambda} (hl : (id, l) ∈ s.lambdas.entries) :
    grants.of id = grants'.of id := by
  have hhere := grants_of_mem hgrants hl
  have hthere := grants_of_mem hgrants' (h.lambdas hl)
  -- grants are computed from the lambda, the library and the platform
  rw [lambdaGrants, h.platform_eq] at hhere
  rw [lambdaGrants, hhere] at hthere
  exact Except.ok.inj hthere

/-- A lambda stays what it is. -/
theorem get?_lambda {id : String} {l : Lambda} (hl : s.lambdas.get? id = some l) :
    s'.lambdas.get? id = some l :=
  OrderedMap.get?_eq_some_iff.mpr (h.lambdas (OrderedMap.get?_eq_some_iff.mp hl))

variable {library : List Declaration} {grants grants' : Grants}
  (hgrants : s.grants library = .ok grants) (hgrants' : s'.grants library = .ok grants')

include hgrants hgrants'

/-- What a family emits for an entity is emitted for the larger schema too; only the handlers of
paths are more than before. -/
theorem prescribed_aws {a : Aws.Family} {e : Entity} (he : e ∈ a.producer.entities s)
    {g g' : Generated} (hg : a.prescribed s grants e = some g)
    (hg' : a.prescribed s' grants' e = some g') : g.resources ⊆ g'.resources := by
  by_cases hpreflight : a = .preflight
  · subst hpreflight
    rcases Aws.Preflight.mem_entities_iff.mp he with ⟨api, _, _, rfl⟩
    cases hg
    cases hg'
    have hids : Aws.RestApi.idsFor s api = Aws.RestApi.idsFor s' api := by
      rw [Aws.RestApi.idsFor, Aws.RestApi.idsFor, Aws.RestApi.resource, Aws.RestApi.resource,
        h.name_eq, h.description_eq]
    -- there are handlers for all served paths, and more routes serve no fewer paths
    intro r hr
    rcases List.mem_flatMap.mp hr with ⟨p, hp, hrp⟩
    rw [hids] at hrp
    exact List.mem_flatMap.mpr ⟨p, h.servedPaths hp, hrp⟩
  · have hsame : a.prescribed s grants e = a.prescribed s' grants' e := by
      by_cases hfunction : a = .function
      · subst hfunction
        rcases Aws.Function.mem_entities_iff.mp he with ⟨id, l, hl, rfl⟩
        exact congrArg some
          (Aws.Function.generateFor_congr h.frame_eq (h.grants_eq hgrants hgrants' hl))
      · exact Aws.Family.prescribed_congr h.frame_eq hfunction hpreflight e
    rw [hsame, hg'] at hg
    cases hg
    exact List.Subset.refl _

/-- On Azure an item emits just the same. -/
theorem prescribed_azure {item : WorkItem}
    (hitem : item ∈ Schedule.items Platform.azure.producers s) {g : Generated}
    (hg : Azure.prescribed s grants item.entity = some g) :
    Azure.prescribed s' grants' item.entity = some g := by
  rcases Azure.mem_items_cases hitem with ⟨id, l, hl, rfl⟩ | ⟨r, _, rfl⟩ | ⟨t, _, rfl⟩
  · rw [← hg]
    exact congrArg some
      (Azure.FunctionApp.generateFor_congr h.frame_eq (h.grants_eq hgrants hgrants' hl)).symm
  · simp only [Azure.prescribed, Option.bind_eq_bind, Option.bind_eq_some_iff] at hg ⊢
    obtain ⟨l, hl, hg⟩ := hg
    rw [Azure.FunctionApp.idsFor_congr h.frame_eq] at hg
    exact ⟨l, h.get?_lambda hl, hg⟩
  · simp only [Azure.prescribed, Option.bind_eq_bind, Option.bind_eq_some_iff] at hg ⊢
    obtain ⟨l, hl, hg⟩ := hg
    exact ⟨l, h.get?_lambda hl, hg⟩

/-- An item emits no less in the larger schema. -/
theorem prescribed_subset {item : WorkItem}
    (hitem : item ∈ Schedule.items s.platform.producers s) {g g' : Generated}
    (hg : s.prescribed grants item = some g) (hg' : s'.prescribed grants' item = some g') :
    g.resources ⊆ g'.resources := by
  unfold prescribed at hg hg'
  rw [← h.platform_eq] at hg'
  cases hplatform : s.platform with
  | aws =>
      rw [hplatform] at hitem hg hg'
      obtain ⟨hp, he⟩ := Schedule.mem_items_iff.mp hitem
      obtain ⟨a, ha⟩ := Aws.Family.mem_producers_iff.mp hp
      rw [← ha] at he
      simp only [← ha, Aws.Family.named_name, Option.bind_some] at hg hg'
      exact h.prescribed_aws hgrants hgrants' he hg hg'
  | azure =>
      rw [hplatform] at hitem hg hg'
      have hsame := h.prescribed_azure hgrants hgrants' hitem hg
      rw [hsame] at hg'
      cases hg'
      exact List.Subset.refl _

end PartOf

variable {s s' : Schema} {library : List Declaration} {pass pass' : Pass}

/-- A schema keeps all of its resources when it grows. -/
theorem PartOf.resources_subset (h : s.PartOf s') (hgen : s.generate library = .ok pass)
    (hgen' : s'.generate library = .ok pass') : pass.resources ⊆ pass'.resources := by
  rcases generate_ok hgen with ⟨grants, _, _, hgrants, _⟩
  rcases generate_ok hgen' with ⟨grants', _, _, hgrants', _⟩
  intro r hr
  rcases (mem_resources_iff hgrants hgen).mp hr with ⟨item, hitem, g, hg, hrg⟩
  rcases exists_prescribed hgrants' hgen' (h.items hitem) with ⟨g', hg', hsub⟩
  exact hsub (h.prescribed_subset hgrants hgrants' hitem hg hg' hrg)

/-- A schema that grows keeps its resources as they are: against the graph of the smaller schema, a
plan for the larger one keeps what was there, creates the rest, and updates and destroys nothing.
Where the larger schema is part of the smaller one too, as where its lambdas, routes and timers only
stand in another order, everything is kept. -/
theorem additive_evolution (h : s.PartOf s') (hgen : s.generate library = .ok pass)
    (hgen' : s'.generate library = .ok pass') (app : String) :
    let plan := Plan.compare app pass'.resources pass.resources
    pass.resources ⊆ pass'.resources ∧
      plan.changes =
        (pass'.resources.map fun r => ⟨r.address, if r ∈ pass.resources then .keep else .create⟩) ∧
      (Plan.countOf plan.changes .update = 0 ∧ Plan.countOf plan.changes .destroy = 0 ∧
        Plan.countOf plan.changes .keep = pass.resources.length ∧
        Plan.countOf plan.changes .create + pass.resources.length = pass'.resources.length) ∧
      (plan.toUpdate = 0 ∧ plan.toDestroy = 0 ∧ plan.unchanged = .ofNat pass.resources.length ∧
        plan.toCreate + .ofNat pass.resources.length = .ofNat pass'.resources.length) ∧
      (s'.PartOf s → ∀ c ∈ plan.changes, c.action = .keep) := by
  have hsub := h.resources_subset hgen hgen'
  have hnew := addresses_nodup_of_generate hgen'
  have hstored := (addresses_nodup_of_generate hgen).of_map _
  refine ⟨hsub, Plan.changes_of_subset hsub hnew, Plan.counts_of_subset hsub hnew hstored,
    Plan.fields_of_subset hsub hnew hstored, ?_⟩
  intro hback
  exact Plan.keep_of_subset hsub hnew (hback.resources_subset hgen' hgen)

/-- The small application with a further lambda in front and a route of its own below `/users`. -/
def shopWithOrders : Schema :=
  { shop with
    version := "1.1"
    lambdas := .ofList (("orders", ⟨"orders.jar", "Orders", Lambda.defaultMemoryMb,
      Lambda.defaultTimeoutSec, Lambda.defaultRuntime, .empty, []⟩) :: shop.lambdas.entries)
    routes :=
      { dynamic := ⟨.parse "/users/{id}/orders", .post, "orders"⟩ :: shop.routes.dynamic
        static := shop.routes.static } }

theorem partOf_shopWithOrders : shop.PartOf shopWithOrders := by
  refine ⟨rfl, rfl, rfl, rfl, rfl, rfl, rfl, ?_, ?_, ?_, ?_⟩
  all_goals decide +kernel

/-- A lambda and a route more are eleven resources more, and the others stay as they are. -/
theorem additive_evolution_shop : ∃ pass pass', shop.generate [] = .ok pass ∧
    shopWithOrders.generate [] = .ok pass' ∧ pass.resources ⊆ pass'.resources ∧
      (Plan.compare "shop" pass'.resources pass.resources).unchanged = 31 ∧
      (Plan.compare "shop" pass'.resources pass.resources).toCreate = 11 ∧
      (Plan.compare "shop" pass'.resources pass.resources).toUpdate = 0 ∧
      (Plan.compare "shop" pass'.resources pass.resources).toDestroy = 0 := by
  obtain ⟨pass, hgen, hlength⟩ : ∃ pass, shop.generate [] = .ok pass ∧
      pass.resources.length = 31 := exists_of_map_toOption (by decide +kernel)
  obtain ⟨pass', hgen', hlength'⟩ : ∃ pass', shopWithOrders.generate [] = .ok pass' ∧
      pass'.resources.length = 42 := exists_of_map_toOption (by decide +kernel)
  obtain ⟨hsub, -, ⟨-, -, hkeep, hcreate⟩, ⟨hupdate, hdestroy, hunchanged, -⟩, -⟩ :=
    additive_evolution partOf_shopWithOrders hgen hgen' "shop"
  rw [hlength] at hkeep hcreate hunchanged
  rw [hlength'] at hcreate
  have hcreated : Plan.countOf (Plan.compare "shop" pass'.resources pass.resources).changes
      .create = 11 := by omega
  exact ⟨pass, pass', hgen, hgen', hsub, hunchanged, congrArg UInt32.ofNat hcreated, hupdate,
    hdestroy⟩

end Schema
end InfraGraph
