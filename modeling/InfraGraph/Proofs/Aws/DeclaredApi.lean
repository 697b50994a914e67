import InfraGraph.Proofs.Aws.Completion
import InfraGraph.Proofs.Aws.Methods
import Mathlib.Data.List.Dedup
import Mathlib.Data.List.Perm.Basic

/-!
# The emitted API is the declared API

A pass that succeeds emits one method for each endpoint that its schema declares, on the path of the
endpoint, and one integration for each method.  Main statements:

* `Schema.endpoints` — what a schema declares;
* `Aws.perm_endpoints`, `Schema.perm_slots` — items, and so passes, answer what is declared;
* `Aws.Answers`, `Schema.aws_declared_api` — the same with every reference resolved.
-/

namespace InfraGraph

namespace Schema

/-- Endpoints of the routes: those of dynamic routes, and GET for static ones. -/
def routed (s : Schema) : List (HttpMethod × UriPath) :=
  (s.routes.dynamic.map fun r => (r.method, r.path)) ++
    s.routes.static.map fun r => (.get, r.path)

/-- Endpoints of the handlers of an API: where cross-origin requests are answered, OPTIONS once for
the root and each path of a route. -/
def preflights (s : Schema) (api : Api) : List (HttpMethod × UriPath) :=
  if api.allowCors then (.root :: s.routes.paths).dedup.map fun p => (.options, p) else []

/-- Methods and paths that a schema declares. -/
def endpoints (s : Schema) (api : Api) : List (HttpMethod × UriPath) :=
  s.routed ++ s.preflights api

/-- Served are the root and the paths of the routes, each once. -/
theorem perm_servedPaths (s : Schema) :
    s.servedPaths.toList.Perm (.root :: s.routes.paths).dedup := by
  refine (List.perm_ext_iff_of_nodup s.servedPaths.nodup_toList (List.nodup_dedup _)).mpr ?_
  intro p
  rw [List.mem_dedup, ← OrderedSet.mem_def, mem_servedPaths_iff, List.mem_cons]

end Schema

namespace Aws

variable {s : Schema} {api : Api}

def Family.endpoints (s : Schema) (a : Family) : List (HttpMethod × UriPath) :=
  (a.producer.entities s).flatMap fun e => endpointsOf s ⟨a.producer, e⟩

namespace Family

theorem endpoints_route (hapi : s.api = some api) :
    route.endpoints s = s.routes.dynamic.map fun r => (r.method, r.path) := by
  simp only [endpoints, producer, Route.producer, hapi, Option.isNone_some, Bool.false_eq_true,
    if_false, List.flatMap_map]
  exact List.map_eq_flatMap.symm

theorem endpoints_static (hapi : s.api = some api) :
    static.endpoints s = s.routes.static.map fun r => (.get, r.path) := by
  simp only [endpoints, producer, StaticFile.producer, hapi, Option.isNone_some,
    Bool.false_eq_true, if_false, List.flatMap_map]
  exact List.map_eq_flatMap.symm

theorem endpoints_preflight (hapi : s.api = some api) :
    preflight.endpoints s =
      if api.allowCors then s.servedPaths.toList.map fun p => (.options, p) else [] := by
  cases hcors : api.allowCors <;>
    simp [endpoints, producer, Preflight.producer, hapi, hcors, endpointsOf]

end Family

/-- The items of a schema answer its endpoints. -/
theorem perm_endpoints (hapi : s.api = some api) :
    ((Schedule.items Platform.aws.producers s).flatMap (endpointsOf s)).Perm (s.endpoints api) := by
  -- what is left of the families are those that emit methods
  have hothers : ∀ a : Family, ¬Gateway.methodKind ∈ a.kinds → a.endpoints s = [] :=
    fun a hkind => List.flatMap_eq_nil_iff.mpr fun e he => endpointsOf_eq_nil hkind he
  have hitems : (Schedule.items Platform.aws.producers s).flatMap (endpointsOf s) =
      Family.route.endpoints s ++ (Family.static.endpoints s ++ Family.preflight.endpoints s) := by
    calc (Schedule.items Platform.aws.producers s).flatMap (endpointsOf s)
        = Family.all.flatMap (Family.endpoints s) := by
          rw [Schedule.items, Family.producers_eq, List.flatMap_map, List.flatMap_assoc]
          simp only [List.flatMap_map]
          rfl
      _ = Family.route.endpoints s ++
            (Family.static.endpoints s ++ Family.preflight.endpoints s) := by
          simp [Family.all, hothers .restApi (by decide), hothers .path (by decide),
            hothers .function (by decide), hothers .publication (by decide),
            hothers .timer (by decide), hothers .domain (by decide)]
  rw [hitems, Family.endpoints_route hapi, Family.endpoints_static hapi,
    Family.endpoints_preflight hapi, ← List.append_assoc]
  refine (List.Perm.refl _).append ?_
  unfold Schema.preflights
  split
  · exact s.perm_servedPaths.map _
  · exact .refl _

/-- The path of an endpoint is the root or stands in the tree of paths. -/
theorem path_of_mem_endpoints {endpoint : HttpMethod × UriPath}
    (h : endpoint ∈ s.endpoints api) : endpoint.2 = .root ∨ endpoint.2 ∈ s.routePaths := by
  rcases List.mem_append.mp h with hrouted | hpreflight
  · rcases List.mem_append.mp hrouted with hdynamic | hstatic
    · rcases List.mem_map.mp hdynamic with ⟨r, hr, rfl⟩
      exact Schema.mem_routePaths_of_mem_paths (Schema.dynamic_path_mem hr)
    · rcases List.mem_map.mp hstatic with ⟨r, hr, rfl⟩
      exact Schema.mem_routePaths_of_mem_paths (Schema.static_path_mem hr)
  · unfold Schema.preflights at hpreflight
    split at hpreflight
    · rcases List.mem_map.mp hpreflight with ⟨p, hp, rfl⟩
      rcases List.mem_cons.mp (List.mem_dedup.mp hp) with rfl | hp
      · exact Or.inl rfl
      · exact Schema.mem_routePaths_of_mem_paths hp
    · cases hpreflight

/-- A method answers an endpoint: it has the HTTP method, and the resource that it names resolves
to the path and to no other. -/
def Answers (rs : List Resource) (m : Resource) (endpoint : HttpMethod × UriPath) : Prop :=
  m.fields.get? "http_method" = some (.text endpoint.1.text) ∧
    ∃ ref, m.fields.get? "resource_id" = some (.ref ref) ∧
      ∀ path, Resolves rs ref path ↔ path = endpoint.2.segments

end Aws

namespace Schema

open Aws Gateway

variable {s : Schema} {library : List Declaration} {api : Api} {pass : Pass}

/-- The methods of a pass have the slots of the declared endpoints. -/
theorem perm_slots (haws : s.platform = .aws) (hapi : s.api = some api)
    (hgen : s.generate library = .ok pass) :
    ((methods pass.resources).map slot).Perm ((s.endpoints api).map (slotFor s api)) := by
  rcases generate_ok hgen with ⟨grants, done, ctx, _, hist, hperm, hresources⟩
  rw [haws] at hist hperm
  rw [hresources, slots_of_history hist haws hapi]
  exact ((hperm.symm.flatMap_right (endpointsOf s)).trans (perm_endpoints hapi)).map _

/-- The reference of a declared path resolves to it. -/
theorem resolves_of_generate (haws : s.platform = .aws) (hapi : s.api = some api)
    (hgen : s.generate library = .ok pass) {p : UriPath} (hp : p = .root ∨ p ∈ s.routePaths)
    {path : List String} :
    Resolves pass.resources (PathResource.referenceFor s api p) path ↔ path = p.segments := by
  rcases generate_ok hgen with ⟨grants, done, ctx, _, hist, hperm, hresources⟩
  rw [haws] at hist hperm
  rw [hresources]
  refine resolves_reference_iff hist (fun item hitem => ?_) hapi haws hp
  exact List.mem_map.mp (hperm.mem_iff.mp hitem)

/-- Each method has one integration of its name, and it is linked to the method. -/
theorem filter_integration (haws : s.platform = .aws) (hgen : s.generate library = .ok pass) :
    ∀ m ∈ methods pass.resources, ∃ t,
      (pass.resources.filter fun t => t.kind = integrationKind ∧ t.name = m.name) = [t] ∧
        Integrates t m := by
  rcases generate_ok hgen with ⟨grants, done, ctx, _, hist, _, hresources⟩
  rw [haws] at hist
  rw [hresources]
  intro m hm
  rcases exists_integration_of_history hist haws m hm with ⟨t, ht, hintegrates⟩
  have haddresses := hist.addresses_nodup
  refine ⟨t, Distinct.filter_eq_singleton (List.Nodup.of_map _ haddresses) ht ?_, hintegrates⟩
  intro u hu
  simp only [decide_eq_true_eq]
  constructor
  · rintro ⟨hkind, hname⟩
    -- kind and name make the address, and no address is emitted twice
    refine List.inj_on_of_nodup_map haddresses hu ht ?_
    rw [Resource.address, Resource.address, hkind, hname, hintegrates.kind_eq,
      hintegrates.name_eq]
  · rintro rfl
    exact ⟨hintegrates.kind_eq, hintegrates.name_eq⟩

/-- The emitted API is the declared one. -/
theorem aws_declared_api (haws : s.platform = .aws) (hapi : s.api = some api)
    (hgen : s.generate library = .ok pass) :
    (∃ answered, List.Forall₂ (Answers pass.resources) (methods pass.resources) answered ∧
        answered.Perm (s.endpoints api)) ∧
      ∀ m ∈ methods pass.resources, ∃ t,
        (pass.resources.filter fun t => t.kind = integrationKind ∧ t.name = m.name) = [t] ∧
          Integrates t m := by
  refine ⟨?_, filter_integration haws hgen⟩
  -- slots are those of the endpoints in another order, and each endpoint resolves
  have hslots : List.Forall₂
      (fun slot endpoint => slot = slotFor s api endpoint ∧ endpoint ∈ s.endpoints api)
      ((s.endpoints api).map (slotFor s api)) (s.endpoints api) := by
    rw [List.forall₂_map_left_iff, List.forall₂_same]
    exact fun endpoint hendpoint => ⟨rfl, hendpoint⟩
  rcases List.perm_comp_forall₂ (perm_slots haws hapi hgen) hslots with ⟨answered, hall, hperm⟩
  refine ⟨answered, (List.forall₂_map_left_iff.mp hall).imp ?_, hperm⟩
  rintro m endpoint ⟨hslot, hendpoint⟩
  simp only [slot, slotFor, Prod.mk.injEq] at hslot
  obtain ⟨-, hresource, hmethod⟩ := hslot
  exact ⟨hmethod, _, hresource, fun path =>
    resolves_of_generate haws hapi hgen (path_of_mem_endpoints hendpoint)⟩

/-- The small application has four methods: that of its route, that of its index, and a preflight
handler for the path of each. -/
theorem aws_declared_api_shop : ∃ pass answered, shop.generate [] = .ok pass ∧
    List.Forall₂ (Answers pass.resources) (methods pass.resources) answered ∧
      answered.Perm [(.get, .parse "/users/{id}"), (.get, .root), (.options, .root),
        (.options, .parse "/users/{id}")] := by
  obtain ⟨pass, hgen⟩ := exists_of_isOk isOk_generate_shop
  rcases (aws_declared_api (s := shop) rfl rfl hgen).1 with ⟨answered, hanswers, hperm⟩
  refine ⟨pass, answered, hgen, hanswers, hperm.trans ?_⟩
  decide +kernel

end Schema
end InfraGraph
