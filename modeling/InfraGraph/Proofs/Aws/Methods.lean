import InfraGraph.Proofs.Aws.Resolution

/-!
# The methods of an API

Methods are emitted for dynamic routes, for static routes and for preflight handlers, each together
with its integration, and by no other producer.  Main statements:

* `Aws.Gateway.slot`, `Aws.Gateway.Integrates` — what tells methods apart, and what integrates one;
* `Aws.endpointsOf`, `Aws.slots_generated` — the methods that an item emits;
* `Aws.slots_of_history`, `Aws.exists_integration_of_history` — those of a pass.
-/

namespace InfraGraph
namespace Aws

open Resource

/-! ## Methods and integrations -/

namespace Gateway

def methods (rs : List Resource) : List Resource := rs.filter fun r => r.kind = methodKind

/-- What tells a method from others: its API, the resource of its path and the HTTP method. -/
def slot (r : Resource) : Option FieldValue × Option FieldValue × Option FieldValue :=
  (r.fields.get? "rest_api_id", r.fields.get? "resource_id", r.fields.get? "http_method")

/-- Names of the fields that every part of a method begins with. -/
def slotFields : List String := ["rest_api_id", "resource_id", "http_method"]

/-- A part of a method has the slot of its method. -/
theorem slot_part (kind name restApiId resourceId : String) (m : Resource)
    {fields : List (String × FieldValue)} (hfields : ∀ field ∈ fields, ¬field.1 ∈ slotFields) :
    slot (part kind name restApiId resourceId m fields) =
      (some (.ref restApiId), some (.ref resourceId), some (.ref (m.attr "http_method"))) := by
  -- the last entry of a key counts, and the further fields have none of these keys
  have hnone : ∀ key ∈ slotFields, Entries.get? key fields.reverse = none := by
    intro key hkey
    refine Entries.get?_eq_none_iff.mpr fun hmem => ?_
    obtain ⟨field, hfield, rfl⟩ := List.mem_map.mp hmem
    exact hfields field (List.mem_reverse.mp hfield) hkey
  simp only [slotFields, List.forall_mem_cons] at hnone
  obtain ⟨h₁, h₂, h₃, -⟩ := hnone
  simp [slot, part, ofFields, OrderedMap.get?_ofList, Entries.get?_append, Entries.get?, h₁, h₂, h₃]

/-- The integration of a method bears its name, has its API and path and refers to it. -/
structure Integrates (t m : Resource) : Prop where
  kind_eq : t.kind = integrationKind
  name_eq : t.name = m.name
  restApi_eq : t.fields.get? "rest_api_id" = m.fields.get? "rest_api_id"
  resource_eq : t.fields.get? "resource_id" = m.fields.get? "resource_id"
  method_eq : t.fields.get? "http_method" = some (.ref (m.attr "http_method"))

/-- The integration of a method has its name, its API and its path. -/
theorem integrates_part (name restApiId resourceId httpMethod : String)
    {fields : List (String × FieldValue)} (hfields : ∀ field ∈ fields, ¬field.1 ∈ slotFields) :
    Integrates
      (part integrationKind name restApiId resourceId
        (method name restApiId resourceId httpMethod) fields)
      (method name restApiId resourceId httpMethod) := by
  have hslot := slot_part integrationKind name restApiId resourceId
    (method name restApiId resourceId httpMethod) hfields
  simp only [slot, Prod.mk.injEq] at hslot
  obtain ⟨hapi, hresource, hmethod⟩ := hslot
  exact ⟨rfl, rfl, hapi, hresource, hmethod⟩

theorem Integrates.after {t m : Resource} (h : Integrates t m) (addresses : List String) :
    Integrates (t.after addresses) m :=
  ⟨h.kind_eq, h.name_eq, h.restApi_eq, h.resource_eq, h.method_eq⟩

end Gateway

open Gateway

/-! ## What one item emits -/

variable {s : Schema} {grants : Grants} {done : List Completion} {ctx : Context} {api : Api}
  {rest : RestApiIds} {id bucket : String} {e : Entity} {g : Generated}

/-- A dynamic route has one method. -/
theorem Route.methods_generated {target : FunctionIds} {r : DynamicRoute} :
    methods (Route.generated api rest target id r).resources =
      [Route.method (Route.routeName api r) rest id r] := rfl

/-- A static route has one method, GET. -/
theorem StaticFile.methods_generated {r : StaticRoute} :
    methods (StaticFile.generated s api rest id bucket r).resources =
      [Gateway.method (StaticFile.identifier api r) rest.restApiId id "GET"] := rfl

/-- An API that answers preflight requests has a method for each served path. -/
theorem Preflight.methods_generated :
    methods (Preflight.generated s api rest).resources =
      s.servedPaths.toList.map (Preflight.method api rest) := by
  simp only [Preflight.generated, methods, List.filter_flatMap]
  exact List.map_eq_flatMap.symm

/-- A producer that has no methods among its kinds emits none. -/
theorem Family.methods_eq_nil {a : Family} (hkind : ¬methodKind ∈ a.kinds)
    (haws : s.platform = .aws) (hs : ctx.schema = s) (he : e ∈ a.producer.entities s)
    (hg : a.producer.generate ctx e = .ok g) : methods g.resources = [] := by
  refine List.filter_eq_nil_iff.mpr fun r hr => ?_
  have hmem : r.kind ∈ a.kinds := a.kind_mem haws hs he hg hr
  simp only [decide_eq_true_eq]
  exact fun h => hkind (h ▸ hmem)

/-- Every method is emitted together with its integration. -/
theorem Family.exists_integration (a : Family) (haws : s.platform = .aws) (hs : ctx.schema = s)
    (he : e ∈ a.producer.entities s) (hg : a.producer.generate ctx e = .ok g) :
    ∀ m ∈ methods g.resources, ∃ t ∈ g.resources, Integrates t m := by
  by_cases hkind : methodKind ∈ a.kinds
  · intro m hm
    cases a with
    | route =>
        rcases Route.mem_entities_iff.mp he with ⟨_, _, r, _, rfl⟩
        rcases Route.generate_eq_ok_iff.mp hg with ⟨_, _, _, _, _, _, _, _, _, rfl⟩
        rw [Route.methods_generated, List.mem_singleton] at hm
        subst hm
        exact ⟨_, List.mem_cons_of_mem _ List.mem_cons_self,
          integrates_part _ _ _ _ (by simp [slotFields])⟩
    | static =>
        rcases StaticFile.mem_entities_iff.mp he with ⟨_, _, r, _, rfl⟩
        rcases StaticFile.generate_eq_ok_iff.mp hg with ⟨_, _, _, _, _, _, _, _, rfl⟩
        rw [StaticFile.methods_generated, List.mem_singleton] at hm
        subst hm
        exact ⟨_, List.mem_cons_of_mem _ (List.mem_cons_of_mem _ List.mem_cons_self),
          (integrates_part _ _ _ _ (by simp [slotFields])).after _⟩
    | preflight =>
        rcases Preflight.mem_entities_iff.mp he with ⟨api, _, _, rfl⟩
        rcases Preflight.generate_eq_ok_iff.mp hg with ⟨rest, _, rfl⟩
        rw [Preflight.methods_generated, List.mem_map] at hm
        rcases hm with ⟨p, hp, rfl⟩
        exact ⟨_, List.mem_flatMap.mpr ⟨p, hp, List.mem_cons_of_mem _ List.mem_cons_self⟩,
          (integrates_part _ _ _ _ (by simp [slotFields])).after _⟩
    | restApi | path | function | publication | timer | domain =>
        exact absurd hkind (by decide)
  · rw [Family.methods_eq_nil hkind haws hs he hg]
    simp

/-! ## What a pass emits -/

def endpointsOf (s : Schema) (item : WorkItem) : List (HttpMethod × UriPath) :=
  match item.entity with
  | .route r => [(r.method, r.path)]
  | .static r => [(.get, r.path)]
  | .api _ =>
      if item.producer.name = Preflight.name then s.servedPaths.toList.map fun p => (.options, p)
      else []
  | _ => []

/-- Items of families without methods answer no endpoint. -/
theorem endpointsOf_eq_nil {a : Family} (hkind : ¬methodKind ∈ a.kinds)
    (he : e ∈ a.producer.entities s) : endpointsOf s ⟨a.producer, e⟩ = [] := by
  cases a with
  | restApi =>
      rcases RestApi.mem_entities_iff.mp he with ⟨_, _, rfl⟩
      rfl
  | path =>
      rcases PathResource.mem_entities_iff.mp he with ⟨_, _, _, _, rfl⟩
      rfl
  | function =>
      rcases Function.mem_entities_iff.mp he with ⟨_, _, _, rfl⟩
      rfl
  | publication =>
      rcases Publication.mem_entities_iff.mp he with ⟨_, _, rfl⟩
      rfl
  | timer =>
      rcases Timers.mem_entities_iff.mp he with ⟨_, _, rfl⟩
      rfl
  | domain =>
      rcases DomainAlias.mem_entities_iff.mp he with ⟨_, _, _, _, rfl⟩
      rfl
  | route | static | preflight => exact absurd (by decide) hkind

def slotFor (s : Schema) (api : Api) (endpoint : HttpMethod × UriPath) :
    Option FieldValue × Option FieldValue × Option FieldValue :=
  (some (.ref (RestApi.idsFor s api).restApiId),
    some (.ref (PathResource.referenceFor s api endpoint.2)), some (.text endpoint.1.text))

/-- An item emits a method for each endpoint that it answers, in order. -/
theorem slots_generated (h : History Platform.aws.producers s grants done ctx)
    (haws : s.platform = .aws) (hapi : s.api = some api) (a : Family)
    (he : e ∈ a.producer.entities s) (hg : a.producer.generate ctx e = .ok g) :
    (methods g.resources).map slot = (endpointsOf s ⟨a.producer, e⟩).map (slotFor s api) := by
  by_cases hkind : methodKind ∈ a.kinds
  · cases a with
    | route =>
        rcases Route.mem_entities_iff.mp he with ⟨_, _, r, _, rfl⟩
        rcases Route.generate_eq_ok_iff.mp hg with ⟨_, api', rest, _, id, hapi', hrest, _, hid, rfl⟩
        rw [h.schema_eq, hapi] at hapi'
        cases hapi'
        rw [Route.methods_generated, RestApi.ids_eq h hapi hrest,
          PathResource.idOf_eq_reference h hapi hid]
        rfl
    | static =>
        rcases StaticFile.mem_entities_iff.mp he with ⟨_, _, r, _, rfl⟩
        rcases StaticFile.generate_eq_ok_iff.mp hg with
            ⟨_, api', rest, id, _, hapi', hrest, hid, rfl⟩
        rw [h.schema_eq, hapi] at hapi'
        cases hapi'
        rw [StaticFile.methods_generated, RestApi.ids_eq h hapi hrest,
          PathResource.idOf_eq_reference h hapi hid]
        rfl
    | preflight =>
        -- one item for all served paths, with a handler for each
        rcases Preflight.mem_entities_iff.mp he with ⟨api', hapi', _, rfl⟩
        rw [hapi] at hapi'
        cases hapi'
        rcases Preflight.generate_eq_ok_iff.mp hg with ⟨rest, hrest, rfl⟩
        rw [Preflight.methods_generated, RestApi.ids_eq h hapi hrest, h.schema_eq]
        simp only [endpointsOf, Family.producer, Preflight.producer, if_true, List.map_map]
        rfl
    | restApi | path | function | publication | timer | domain =>
        exact absurd hkind (by decide)
  · rw [Family.methods_eq_nil hkind haws h.schema_eq he hg, endpointsOf_eq_nil hkind he]
    rfl

/-- So does a pass, item after item. -/
theorem slots_of_history (h : History Platform.aws.producers s grants done ctx)
    (haws : s.platform = .aws) (hapi : s.api = some api) :
    (methods ctx.resources).map slot =
      ((done.map Completion.item).flatMap (endpointsOf s)).map (slotFor s api) := by
  induction h with
  | start => rfl
  | @step done ctx c hist hitem hfits ih =>
      rcases Schedule.mem_items_iff.mp hitem with ⟨hp, he⟩
      rcases Family.mem_producers_iff.mp hp with ⟨a, ha⟩
      have hgenerate := hfits.generate
      rw [← ha] at he hgenerate
      -- committing an item appends what it emits to what is there
      have hslots := slots_generated hist haws hapi a he hgenerate
      rw [ha] at hslots
      rw [Completion.resources_commit, methods, List.filter_append, List.map_append]
      simp only [List.map_append, List.flatMap_append, List.map_cons, List.map_nil,
        List.flatMap_cons, List.flatMap_nil, List.append_nil]
      exact congrArg₂ _ ih hslots

/-- Without an API no method is emitted. -/
theorem methods_eq_nil_of_history (h : History Platform.aws.producers s grants done ctx)
    (haws : s.platform = .aws) (hapi : s.api = none) : methods ctx.resources = [] := by
  rw [h.resources_eq, methods, List.filter_flatMap, List.flatMap_eq_nil_iff]
  intro c hc
  rcases h.origin_of_mem hc with ⟨hp, before, horigin⟩
  rcases Family.mem_producers_iff.mp hp with ⟨a, ha⟩
  rw [← ha] at horigin
  refine Family.methods_eq_nil ?_ haws horigin.schema_eq horigin.entity_mem horigin.generates
  -- whoever emits methods has entities only where there is an API
  intro hkind
  have he := horigin.entity_mem
  cases a with
  | route => simp [Family.producer, Route.producer, hapi] at he
  | static => simp [Family.producer, StaticFile.producer, hapi] at he
  | preflight => simp [Family.producer, Preflight.producer, hapi] at he
  | restApi | path | function | publication | timer | domain =>
      exact absurd hkind (by decide)

/-- Every method that was emitted has its integration. -/
theorem exists_integration_of_history (h : History Platform.aws.producers s grants done ctx)
    (haws : s.platform = .aws) :
    ∀ m ∈ methods ctx.resources, ∃ t ∈ ctx.resources, Integrates t m := by
  intro m hm
  rcases List.mem_filter.mp hm with ⟨hmem, hkind⟩
  rw [h.resources_eq] at hmem
  rcases List.mem_flatMap.mp hmem with ⟨c, hc, hmc⟩
  rcases h.origin_of_mem hc with ⟨hp, before, horigin⟩
  rcases Family.mem_producers_iff.mp hp with ⟨a, ha⟩
  rw [← ha] at horigin
  rcases a.exists_integration haws horigin.schema_eq horigin.entity_mem horigin.generates m
    (List.mem_filter.mpr ⟨hmc, hkind⟩) with ⟨t, ht, hintegrates⟩
  exact ⟨t, horigin.emitted t ht, hintegrates⟩

end Aws
end InfraGraph
