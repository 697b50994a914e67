import InfraGraph.Proofs.Azure.Names
import InfraGraph.Proofs.Generation.Calls

/-!
# A pass for an accepted schema on Azure

Where short digests tell scopes apart, a pass for an accepted schema succeeds.  Apps come first and
wait for nothing, so one sweep completes everything.  Main statements:

* `Azure.nodup_entity_ids` — the entities of each producer are told apart by id;
* `Azure.no_duplicate` — no item generates an address that is taken;
* `Azure.ready_in_order` — every item is ready when its turn comes;
* `Schema.azure_pass_in_order` — what a pass completes, in which order, and in how many sweeps;
* `Schema.azure_generate_ok` — the pass succeeds, in one sweep, with the resources of every item.
-/

namespace InfraGraph

namespace Azure

variable {s : Schema} {grants : Grants} {library : List Declaration} {done : List Completion}
  {ctx : Context}

/-- The entities of each producer are told apart by id. -/
theorem nodup_entity_ids (h : s.Accepted) :
    ∀ p ∈ Platform.azure.producers, ((p.entities s).map Entity.id).Nodup := by
  intro p hp
  simp only [Platform.producers, List.mem_cons, List.not_mem_nil, or_false] at hp
  rcases hp with rfl | rfl | rfl
  · simp only [FunctionApp.producer, Schema.lambdaEntities, List.map_map]
    apply Distinct.nodup_map_of_key s.lambdas.distinct
    intro a _ b _ he
    exact EntityId.lambda_injective he
  · simp only [HttpBinding.producer, List.map_map]
    apply Distinct.nodup_map_of_key h.routes_distinct
    intro a _ b _ he
    obtain ⟨hmethod, hpath⟩ := EntityId.route_injective he
    rw [hmethod, hpath]
  · simp only [Timers.producer, List.map_map]
    apply Distinct.nodup_map_of_key h.timers_distinct
    intro a _ b _ he
    exact EntityId.timer_injective he

/-! ## No address is generated twice -/

/-- What an item generates in a state of the schema and the grants. -/
theorem label_of_generate (hazure : s.platform = .azure)
    (h : History Platform.azure.producers s grants done ctx) {i : WorkItem}
    (hi : i ∈ Schedule.items Platform.azure.producers s) {g : Generated}
    (hg : i.producer.generate ctx i.entity = .ok g) :
    g.resources.map Resource.label = labels s grants i.entity ∧
      ∀ r ∈ g.resources, r.Addressable := by
  obtain ⟨hp, he⟩ := Schedule.mem_items_iff.mp hi
  constructor
  · exact map_label hazure h.schema_eq h.grants_eq hp he hg
  · exact addressable (by rw [h.schema_eq, hazure]) hp he hg

section Accepted

variable (hazure : s.platform = .azure) (haccepted : s.Accepted)
  (hscopes : s.ScopesApart grants) (hgrants : s.grants library = .ok grants)

include hazure haccepted hscopes hgrants

/-- No item that is left generates an address that is taken, or one address twice. -/
theorem no_duplicate (h : History Platform.azure.producers s grants done ctx) {i : WorkItem}
    (hi : i ∈ Schedule.items Platform.azure.producers s)
    (hnot : ctx.has i.producer.name i.entity.id = false) {g : Generated}
    (hg : i.producer.generate ctx i.entity = .ok g) :
    (g.resources.map Resource.address).Nodup ∧ ∀ r ∈ g.resources, ¬r.address ∈ ctx.addresses := by
  obtain ⟨hlabels, hplain⟩ := label_of_generate hazure h hi hg
  constructor
  · apply Resource.nodup_addresses hplain
    rw [hlabels]
    exact nodup_labels haccepted hscopes hgrants hi
  · intro r hr htaken
    rcases h.chain.mem_addresses_iff.mp htaken with hstart | ⟨c, hc, haddress⟩
    · cases hstart
    · obtain ⟨t, ht, heq⟩ := List.mem_map.mp haddress
      obtain ⟨_, before, hbefore, _, hfits⟩ := h.exists_before hc
      have hitem := h.mem_items c hc
      obtain ⟨hlabels', hplain'⟩ := label_of_generate hazure hbefore hitem hfits.generate
      have hlabel : t.label = r.label :=
        Resource.label_eq_of_address_eq (hplain' t ht) (hplain r hr) heq
      have hmem : r.label ∈ labels s grants i.entity := by
        rw [← hlabels]
        exact List.mem_map_of_mem hr
      have hmem' : r.label ∈ labels s grants c.item.entity := by
        rw [← hlabels', ← hlabel]
        exact List.mem_map_of_mem ht
      -- the item that took the address is this one, but this one has not been completed
      have hsame : c.item = i :=
        item_eq_of_label haccepted hscopes hgrants hitem hi hmem' hmem
      have hhas := h.has_of_mem hc
      rw [hsame, hnot] at hhas
      cases hhas

end Accepted

/-! ## One sweep -/

/-- The items of a pass on Azure: apps, then the bindings of routes and of timers. -/
theorem items_eq (s : Schema) : Schedule.items Platform.azure.producers s =
    s.lambdas.entries.map (fun entry => ⟨FunctionApp.producer, .lambda entry.1 entry.2⟩) ++
      (s.routes.dynamic.map (fun r => ⟨HttpBinding.producer, .route r⟩) ++
        s.timers.map fun t => ⟨Timers.producer, .timer t⟩) := by
  simp only [Schedule.items, Platform.producers, List.flatMap_cons, List.flatMap_nil,
    List.append_nil]
  simp only [FunctionApp.producer, HttpBinding.producer, Timers.producer, Schema.lambdaEntities,
    List.map_map]
  rfl

/-- Every item is ready when its turn comes: the apps stand before all routes. -/
theorem ready_in_order (hazure : s.platform = .azure) {before after : List WorkItem} {i : WorkItem}
    (hsplit : Schedule.items Platform.azure.producers s = before ++ i :: after)
    {more : List Completion} {mid : Context} (hmore : Chain (.initial s grants) more mid)
    (hbefore : more.map Completion.item = before) : i.ready mid = true := by
  have hi : i ∈ Schedule.items Platform.azure.producers s := by simp [hsplit]
  rcases mem_items_cases hi with ⟨id, l, _, rfl⟩ | ⟨r, _, rfl⟩ | ⟨t, _, rfl⟩
  · rfl
  · simp only [WorkItem.ready, HttpBinding.producer, FunctionApp.isReady, Bool.or_eq_true,
      Bool.not_eq_true']
    cases hlambda : mid.hasLambda r.lambda with
    | false => exact Or.inl rfl
    | true =>
        right
        obtain ⟨l, hl⟩ := Option.isSome_iff_exists.mp hlambda
        rw [hmore.schema_eq] at hl
        have hentry := OrderedMap.get?_eq_some_iff.mp hl
        -- the apps stand in front of all routes
        rw [items_eq] at hsplit
        have hnot : ¬(⟨HttpBinding.producer, .route r⟩ : WorkItem) ∈ s.lambdas.entries.map
            fun entry => ⟨FunctionApp.producer, .lambda entry.1 entry.2⟩ := by
          intro hmem
          obtain ⟨entry, _, he⟩ := List.mem_map.mp hmem
          cases congrArg WorkItem.entity he
        have happ := Marker.subset_of_append_eq hnot hsplit (List.mem_map_of_mem hentry)
        rw [← hbefore] at happ
        obtain ⟨c, hc, hitem⟩ := List.mem_map.mp happ
        apply hmore.has_iff.mpr
        exact Or.inr ⟨c, hc, by rw [hitem]; rfl⟩
  · have hschema : mid.schema = s := hmore.schema_eq
    simp only [WorkItem.ready, Timers.producer, hschema, hazure]

end Azure

namespace Schema

variable {s : Schema} {library : List Declaration}

/-- A pass for an accepted schema does not fail. -/
theorem azure_generate_ne_error (hazure : s.platform = .azure) (haccepted : s.Accepted)
    (hlibrary : ∀ d ∈ library, d.resource.platform = .azure)
    (hscopes : ∀ grants, s.grants library = .ok grants → s.ScopesApart grants)
    {e : GenerationError} : s.generate library ≠ .error e := by
  intro hgen
  rcases generate_error hgen with hbad | ⟨grants, done, ctx, left, hgrants, hist, hperm, hfail⟩
  · obtain ⟨grants, hok⟩ := exists_grants haccepted.lambda_permissions
      (by rw [hazure]; exact hlibrary)
    rw [hok] at hbad
    cases hbad
  · rcases hfail with ⟨item, hitem, hready, next, hcomplete⟩ | ⟨_, _, rfl⟩
    · -- a ready item generates something, under a key and addresses that are not taken
      rw [hazure] at hist hperm
      have hmem := hperm.mem_iff.mpr (List.mem_append_right _ hitem)
      have hnot := hist.not_has_of_left (WorkItem.nodup_keys (Azure.nodup_entity_ids haccepted))
        hperm hitem
      obtain ⟨g, hg⟩ := Azure.exists_generated hist hazure haccepted hmem hready
      obtain ⟨hdistinct, hfresh⟩ := Azure.no_duplicate hazure haccepted (hscopes grants hgrants)
        hgrants hist hmem hnot hg
      exact WorkItem.complete_ne_error hg hnot hdistinct hfresh hcomplete
    · exact generate_ne_stalled hgen

/-- Labels of everything that a schema on Azure stands for: apps with their assignments, then the
bindings of routes and of timers. -/
def azureLabels (s : Schema) (grants : Grants) : List (String × String) :=
  s.lambdas.keys.flatMap (Azure.FunctionApp.labels s grants) ++
    (s.routes.dynamic.map (fun r => (Azure.Binding.kind, Azure.HttpBinding.bindingName r)) ++
      s.timers.map fun t => (Azure.Binding.kind, Azure.TimerBinding.bindingName t))

/-- Number of lambdas, dynamic routes and timers. -/
def azureItems (s : Schema) : Nat := s.lambdas.size + s.routes.dynamic.length + s.timers.length

theorem length_items_azure (s : Schema) :
    (Schedule.items Platform.azure.producers s).length = s.azureItems := by
  simp [Azure.items_eq, azureItems, OrderedMap.size, Nat.add_assoc]

/-- The labels of the items are those of the schema, in order. -/
theorem flatMap_labels_azure (s : Schema) (grants : Grants) :
    (Schedule.items Platform.azure.producers s).flatMap (fun i => Azure.labels s grants i.entity) =
      s.azureLabels grants := by
  simp only [Azure.items_eq, azureLabels, OrderedMap.keys, List.flatMap_append, List.flatMap_map,
    Azure.labels]
  rw [List.map_eq_flatMap, List.map_eq_flatMap]

/-- What a pass has emitted has the labels of what it has completed, in order. -/
theorem map_label_azure {grants : Grants} {done : List Completion} {ctx : Context}
    (hazure : s.platform = .azure) (h : History Platform.azure.producers s grants done ctx) :
    ctx.resources.map Resource.label =
      (done.map Completion.item).flatMap fun i => Azure.labels s grants i.entity := by
  rw [h.resources_eq, List.map_flatMap, List.flatMap_map]
  apply List.flatMap_congr
  intro c hc
  obtain ⟨_, before, hbefore, _, hfits⟩ := h.exists_before hc
  exact (Azure.label_of_generate hazure hbefore (h.mem_items c hc) hfits.generate).1

/-- A pass that succeeds has completed its items in order, in one sweep if there is any. -/
theorem azure_pass_in_order (hazure : s.platform = .azure) {grants : Grants}
    (hgrants : s.grants library = .ok grants) {pass : Pass} (hgen : s.generate library = .ok pass) :
    ∃ done ctx, History Platform.azure.producers s grants done ctx ∧
      done.map Completion.item = Schedule.items Platform.azure.producers s ∧
      pass = ⟨ctx.resources, ctx.manifest, if s.azureItems = 0 then 0 else 1, s.azureItems⟩ := by
  obtain ⟨ctx, result, hrun⟩ : ∃ ctx result,
      Schedule.run s.platform.producers (.initial s grants) = (ctx, result) := ⟨_, _, rfl⟩
  rw [generate_eq hgrants hrun] at hgen
  rw [hazure] at hrun
  cases result with
  | error e => cases hgen
  | ok report =>
      cases hgen
      obtain ⟨hsweeps, done, hdone, hitems⟩ := Schedule.run_of_all_ready
        (fun before i after hsplit more mid hmore hbefore =>
          Azure.ready_in_order hazure hsplit hmore hbefore) hrun
      have hcompleted := (Schedule.run_ok hrun).1
      have hlength : (Schedule.items Platform.azure.producers
          (Context.initial s grants).schema).length = s.azureItems := length_items_azure s
      rw [hlength] at hsweeps hcompleted
      refine ⟨done, ctx, ?_, hitems, ?_⟩
      · apply History.of_chain hdone
        intro c hc
        have hmem := List.mem_map_of_mem (f := Completion.item) hc
        rw [hitems] at hmem
        exact hmem
      · cases report
        simp only at hsweeps hcompleted
        rw [hsweeps, hcompleted]

/-- Where all items have been completed, each has its output in the manifest. -/
theorem azure_manifest {grants : Grants} {done : List Completion} {ctx : Context}
    (h : History Platform.azure.producers s grants done ctx)
    (hitems : done.map Completion.item = Schedule.items Platform.azure.producers s)
    {p : Producer} (hp : p ∈ Platform.azure.producers) {e : Entity} (he : e ∈ p.entities s) :
    (ctx.manifest.get? p.name e.id).isSome = true := by
  have hmem : (⟨p, e⟩ : WorkItem) ∈ done.map Completion.item := by
    rw [hitems]
    exact Schedule.mem_items_iff.mpr ⟨hp, he⟩
  obtain ⟨c, hc, hitem⟩ := List.mem_map.mp hmem
  have hhas := h.has_of_mem hc
  rw [hitem] at hhas
  exact Context.isSome_manifest_of_has hhas

/-- A pass for an accepted schema on Azure succeeds where short digests tell the scopes of each
lambda: every lambda, route and timer is completed, in one sweep if there is any, and everything
they stand for is emitted, under addresses of its own. -/
theorem azure_generate_ok (hazure : s.platform = .azure) (hvalid : s.violations = [])
    (hlibrary : ∀ d ∈ library, d.resource.platform = .azure)
    (hscopes : ∀ grants, s.grants library = .ok grants → s.ScopesApart grants) :
    ∃ grants pass, s.grants library = .ok grants ∧ s.generate library = .ok pass ∧
      (∀ id ∈ s.lambdas.keys,
        (pass.manifest.get? Azure.FunctionApp.name (.lambda id)).isSome = true) ∧
      (∀ r ∈ s.routes.dynamic,
        (pass.manifest.get? Azure.HttpBinding.name (.route r.method r.path)).isSome = true) ∧
      (∀ t ∈ s.timers, (pass.manifest.get? Timers.name (.timer t.id)).isSome = true) ∧
      pass.resources.map Resource.label = s.azureLabels grants ∧
      (pass.resources.map Resource.address).Nodup ∧
      pass.report = ⟨if s.azureItems = 0 then 0 else 1, s.azureItems⟩ := by
  have haccepted := accepted_of_violations_eq_nil hvalid
  obtain ⟨grants, hgrants⟩ := exists_grants haccepted.lambda_permissions
    (by rw [hazure]; exact hlibrary)
  obtain ⟨pass, hgen⟩ : ∃ pass, s.generate library = .ok pass := by
    cases hgen : s.generate library with
    | error e => exact absurd hgen (azure_generate_ne_error hazure haccepted hlibrary hscopes)
    | ok pass => exact ⟨pass, rfl⟩
  obtain ⟨done, ctx, hist, hitems, rfl⟩ := azure_pass_in_order hazure hgrants hgen
  refine ⟨grants, _, hgrants, hgen, ?_, ?_, ?_, ?_, hist.addresses_nodup, rfl⟩
  · intro id hid
    obtain ⟨⟨id, l⟩, hl, rfl⟩ := List.mem_map.mp hid
    have hentity : Entity.lambda id l ∈ Azure.FunctionApp.producer.entities s :=
      Azure.FunctionApp.mem_entities_iff.mpr ⟨id, l, hl, rfl⟩
    have hthere := azure_manifest hist hitems (by simp [Platform.producers]) hentity
    exact hthere
  · intro r hr
    have hentity : Entity.route r ∈ Azure.HttpBinding.producer.entities s :=
      Azure.HttpBinding.mem_entities_iff.mpr ⟨r, hr, rfl⟩
    have hthere := azure_manifest hist hitems (by simp [Platform.producers]) hentity
    exact hthere
  · intro t ht
    have hentity : Entity.timer t ∈ Timers.producer.entities s :=
      Timers.mem_entities_iff.mpr ⟨t, ht, rfl⟩
    have hthere := azure_manifest hist hitems (by simp [Platform.producers]) hentity
    exact hthere
  · calc
      ctx.resources.map Resource.label
          = (done.map Completion.item).flatMap fun i => Azure.labels s grants i.entity :=
            map_label_azure hazure hist
      _ = s.azureLabels grants := by
            rw [hitems]
            exact flatMap_labels_azure s grants

/-- A schema that uses every Azure producer, with a lambda that has roles on two scopes. -/
def notes : Schema where
  version := "1.0"
  name := "notes"
  description := none
  platform := .azure
  region := "westeurope"
  account := "sub-1"
  bucket := none
  api := none
  lambdas := .ofList [("users", ⟨"users.jar", "Users", Lambda.defaultMemoryMb,
      Lambda.defaultTimeoutSec, Lambda.defaultRuntime, .empty,
      [⟨.azureStorageAccount "data" "group", .readWrite, none⟩]⟩),
    ("monitoring", ⟨"jobs/monitoring.jar", "Monitoring", Lambda.defaultMemoryMb,
      Lambda.defaultTimeoutSec, Lambda.defaultRuntime, .empty, []⟩)]
  routes :=
    { dynamic := [⟨.parse "/users/{id}", .get, "users"⟩, ⟨.root, .post, "users"⟩]
      static := [] }
  timers := [⟨"nightly", "0 0 3 * * *", "monitoring"⟩]
  libraryPermissions := []

theorem violations_notes : notes.violations = [] := by
  decide +kernel

theorem scopesApart_notes (grants : Grants) (h : notes.grants [] = .ok grants) :
    notes.ScopesApart grants := by
  have hcheck : (match notes.grants [] with
      | .ok grants => decide (notes.ScopesApart grants)
      | .error _ => false) = true := by decide +kernel
  rw [h] at hcheck
  exact of_decide_eq_true hcheck

/-- The small application on Azure is generated, in one sweep over its five items. -/
theorem azure_generate_ok_notes :
    notes.platform = .azure ∧ notes.violations = [] ∧
      (∀ grants, notes.grants [] = .ok grants → notes.ScopesApart grants) ∧
      ∃ pass, notes.generate [] = .ok pass ∧ (pass.resources.map Resource.address).Nodup ∧
        pass.report = ⟨1, 5⟩ := by
  obtain ⟨_, pass, _, hgen, _, _, _, _, hnodup, hreport⟩ :=
    azure_generate_ok (s := notes) rfl violations_notes (by simp) scopesApart_notes
  refine ⟨rfl, violations_notes, scopesApart_notes, pass, hgen, hnodup, ?_⟩
  rw [hreport]
  rfl

end Schema
end InfraGraph
