import InfraGraph.Proofs.Entity
import InfraGraph.Proofs.Generation.Origin
import InfraGraph.Proofs.Generation.Timers
import InfraGraph.Proofs.Name
import InfraGraph.Proofs.Resource.Closed

/-!
# The Azure graph is closed

On Azure nothing refers forward: assignments refer to the app that they are generated with, and
binding files depend on an app that is there.  Main statements:

* `FunctionApp.generate_eq_ok_iff`, `HttpBinding.generate_eq_ok_iff` — when generators succeed;
* `FunctionApp.of_lookup` — the output of an app names an app that is there;
* `linked_generated`, `closed_of_history` — one item, and a whole pass.
-/

namespace InfraGraph

/-! ## The producers -/

namespace Azure

variable {s : Schema} {ctx : Context} {e : Entity} {g : Generated}

namespace FunctionApp

/-- There is an app for each lambda. -/
theorem mem_entities_iff : e ∈ producer.entities s ↔
    ∃ id l, (id, l) ∈ s.lambdas.entries ∧ e = .lambda id l := by
  simp [producer, Schema.lambdaEntities, eq_comm]

/-- Generating an app never fails. -/
theorem generate_eq_ok_iff {id : String} {l : Lambda} :
    producer.generate ctx (.lambda id l) = .ok g ↔ g = generateFor ctx id l := by
  simp [producer, eq_comm]

theorem ids_eq_ok_iff {id : String} {ids : FunctionAppIds} :
    FunctionApp.ids ctx id = .ok ids ↔ ctx.lookup? name (.lambda id) = some (.functionApp ids) := by
  unfold FunctionApp.ids
  exact Context.read_eq_ok_iff_of_sort fun output a => by cases output <;> simp

end FunctionApp

namespace HttpBinding

/-- There is a binding for each dynamic route, without an API. -/
theorem mem_entities_iff : e ∈ producer.entities s ↔ ∃ r ∈ s.routes.dynamic, e = .route r := by
  simp [producer, eq_comm]

/-- A binding is generated once the app of its lambda is there. -/
theorem generate_eq_ok_iff {r : DynamicRoute} :
    producer.generate ctx (.route r) = .ok g ↔
      ∃ l app, ctx.schema.lambdas.get? r.lambda = some l ∧ FunctionApp.ids ctx r.lambda = .ok app ∧
        g = generated l r app := by
  cases hget : ctx.schema.lambdas.get? r.lambda with
  | none => simp [producer, generateFor, hget]
  | some l =>
      simp [producer, generateFor, hget, bind_eq_ok_iff, pure, Except.pure, @eq_comm _ g]

end HttpBinding
end Azure

/-! ## Links -/

namespace Azure

open Resource

variable {s : Schema} {grants : Grants} {done : List Completion} {ctx : Context}
  {before : List Resource} {r : Resource}

/-- No resource refers forward. -/
abbrev LinkedBack (before rs : List Resource) : Prop :=
  LinkedAfter (fun _ => False) (fun _ => False) before rs

/-- What depends on and refers to resources before it is linked. -/
theorem linked_of_before (hdeps : ∀ address ∈ r.dependsOn, ∃ t ∈ before, t.address = address)
    (hrefs : ∀ ref ∈ r.refs, ∃ t ∈ before, ∃ part : String, part ≠ "" ∧ ref = t.attr part) :
    Linked (fun _ => False) (fun _ => False) before r := by
  refine ⟨fun address ha => ?_, fun ref href => Or.inl ?_⟩
  · rcases hdeps address ha with ⟨t, ht, hta⟩
    exact ⟨t, ht, hta, id⟩
  · rcases hrefs ref href with ⟨t, ht, hattr⟩
    exact ⟨t, ht, hattr, id⟩

/-- Names and references of the app of a lambda, from names alone. -/
def FunctionApp.idsFor (s : Schema) (id : String) : FunctionAppIds :=
  ⟨Name.cloud [s.name, id], appKind ++ "." ++ Name.identifier [id],
    appKind ++ "." ++ Name.identifier [id] ++ "." ++ "identity.0.principal_id"⟩

/-- The output of an app names an app that is there. -/
theorem FunctionApp.of_lookup (h : History Platform.azure.producers s grants done ctx)
    {id : String} {app : FunctionAppIds} (hids : FunctionApp.ids ctx id = .ok app) :
    app = idsFor s id ∧ ∃ t ∈ ctx.resources, t.address = app.address := by
  obtain ⟨e, g, before, ⟨hentity, hschema, hgen, _, hres⟩, hid, houtput⟩ := h.exists_origin
    (p := FunctionApp.producer) (by simp [Platform.producers]) (FunctionApp.ids_eq_ok_iff.mp hids)
  rcases FunctionApp.mem_entities_iff.mp hentity with ⟨id', l, _, rfl⟩
  cases EntityId.lambda_injective hid
  rw [FunctionApp.generate_eq_ok_iff] at hgen
  subst hgen
  cases houtput
  rw [← hschema]
  exact ⟨rfl, _, hres _ List.mem_cons_self, rfl⟩

/-- An app refers to nothing, and its assignments refer to it. -/
theorem FunctionApp.linked (ctx : Context) (id : String) (l : Lambda) :
    LinkedBack before (FunctionApp.generateFor ctx id l).resources := by
  -- the app refers to nothing
  have happ : ∀ ref ∈ (FunctionApp.app ctx.schema id l).refs, False := by
    refine forall_refs_ofFields ?_
    have hsettings : ∀ ref ∈ (FunctionApp.settings l).refs, False := by
      refine FieldValue.forall_refs_ofPairs
        (List.forall_mem_cons.mpr ⟨by simp [FieldValue.refs], ?_⟩)
      intro pair hpair
      rcases List.mem_map.mp hpair with ⟨entry, _, rfl⟩
      simp [FieldValue.refs]
    refine List.forall_mem_cons.mpr ⟨by simp [FieldValue.refs], List.forall_mem_cons.mpr
      ⟨by simp [FieldValue.refs], List.forall_mem_cons.mpr ⟨hsettings,
        List.forall_mem_singleton.mpr ?_⟩⟩⟩
    exact FieldValue.forall_refs_ofPairs (by simp [FieldValue.refs])
  refine ⟨linked_of_before (by simp [FunctionApp.app]) fun ref href => (happ ref href).elim, ?_⟩
  rw [← List.flatMap_pure_eq_map]
  -- each assignment refers to the app, which stands first
  refine linkedAfter_flatMap fun role _ more => ?_
  refine ⟨linked_of_before (by simp [FunctionApp.assignment]) (forall_refs_ofFields ?_), trivial⟩
  simp only [List.forall_mem_cons, FieldValue.refs, List.not_mem_nil, false_implies, implies_true,
    List.mem_singleton, forall_eq, true_and]
  exact ⟨FunctionApp.app ctx.schema id l, by simp, "identity.0.principal_id", by decide, rfl⟩

/-- The binding of a route depends on the app of its lambda. -/
theorem HttpBinding.linked {l : Lambda} {r : DynamicRoute} {app : FunctionAppIds}
    (happ : ∃ t ∈ before, t.address = app.address) :
    LinkedBack before (HttpBinding.generated l r app).resources := by
  refine ⟨linked_of_before ?_ ?_, trivial⟩
  · intro address ha
    rw [List.mem_singleton.mp ha]
    exact happ
  · rw [refs_after]
    exact forall_refs_ofFields (by simp [FieldValue.refs])

/-- The binding of a timer refers to nothing. -/
theorem TimerBinding.linked {l : Lambda} {t : Timer} :
    LinkedBack before (TimerBinding.generateFor l t).resources :=
  ⟨linked_of_before (by simp [TimerBinding.file, Binding.file])
    (forall_refs_ofFields (by simp [FieldValue.refs])), trivial⟩

/-- What one item generates is linked to what is there. -/
theorem linked_generated (h : History Platform.azure.producers s grants done ctx)
    (hazure : s.platform = .azure) {p : Producer} (hp : p ∈ Platform.azure.producers) {e : Entity}
    (he : e ∈ p.entities s) {g : Generated} (hg : p.generate ctx e = .ok g) :
    LinkedBack ctx.resources g.resources := by
  simp only [Platform.producers, List.mem_cons, List.not_mem_nil, or_false] at hp
  rcases hp with rfl | rfl | rfl
  · rcases FunctionApp.mem_entities_iff.mp he with ⟨id, l, _, rfl⟩
    rw [FunctionApp.generate_eq_ok_iff.mp hg]
    exact FunctionApp.linked ctx id l
  · rcases HttpBinding.mem_entities_iff.mp he with ⟨r, _, rfl⟩
    rcases HttpBinding.generate_eq_ok_iff.mp hg with ⟨l, app, _, happ, rfl⟩
    exact HttpBinding.linked (FunctionApp.of_lookup h happ).2
  · rcases Timers.mem_entities_iff.mp he with ⟨t, _, rfl⟩
    rcases (Timers.generate_azure_eq_ok_iff (by rw [h.schema_eq, hazure])).mp hg with ⟨l, _, rfl⟩
    exact TimerBinding.linked

/-- Everything that a pass has emitted is linked. -/
theorem linked_of_history (h : History Platform.azure.producers s grants done ctx)
    (hazure : s.platform = .azure) : LinkedBack [] ctx.resources := by
  induction h with
  | start => trivial
  | step hist hitem hfits ih =>
      rcases Schedule.mem_items_iff.mp hitem with ⟨hp, he⟩
      unfold LinkedBack
      rw [Completion.resources_commit, linkedAfter_append]
      exact ⟨ih, linked_generated hist hazure hp he hfits.generate⟩

/-! ## Addresses -/

theorem isKind_of_mem {kind : String}
    (h : kind ∈ [FunctionApp.appKind, FunctionApp.roleKind, Binding.kind]) : IsKind kind := by
  have hwords : ∀ kind ∈ [FunctionApp.appKind, FunctionApp.roleKind, Binding.kind],
      ¬ '.' ∈ kind.toList ∧ kind ≠ lookupWord := by decide +kernel
  exact Or.inl (hwords kind h)

/-- Everything that is generated on Azure can be told from its address. -/
theorem addressable (hazure : ctx.schema.platform = .azure) {p : Producer}
    (hp : p ∈ Platform.azure.producers) {e : Entity} (he : e ∈ p.entities s) {g : Generated}
    (hg : p.generate ctx e = .ok g) : ∀ r ∈ g.resources, r.Addressable := by
  simp only [Platform.producers, List.mem_cons, List.not_mem_nil, or_false] at hp
  rcases hp with rfl | rfl | rfl
  · rcases FunctionApp.mem_entities_iff.mp he with ⟨id, l, _, rfl⟩
    rw [FunctionApp.generate_eq_ok_iff.mp hg]
    refine List.forall_mem_cons.mpr ⟨⟨Name.dot_not_mem_identifier _, isKind_of_mem (by simp
      [FunctionApp.app, ofFields])⟩, ?_⟩
    intro r hr
    rcases List.mem_map.mp hr with ⟨role, _, rfl⟩
    exact ⟨Name.dot_not_mem_identifier _,
      isKind_of_mem (by simp [FunctionApp.assignment, ofFields])⟩
  · rcases HttpBinding.mem_entities_iff.mp he with ⟨r, _, rfl⟩
    rcases HttpBinding.generate_eq_ok_iff.mp hg with ⟨l, app, _, _, rfl⟩
    exact List.forall_mem_singleton.mpr ⟨Name.dot_not_mem_identifier _,
      isKind_of_mem (by simp [HttpBinding.file, Binding.file, ofFields, after])⟩
  · rcases Timers.mem_entities_iff.mp he with ⟨t, _, rfl⟩
    rcases (Timers.generate_azure_eq_ok_iff hazure).mp hg with ⟨l, _, rfl⟩
    exact List.forall_mem_singleton.mpr ⟨Name.dot_not_mem_identifier _,
      isKind_of_mem (by simp [TimerBinding.file, Binding.file, ofFields])⟩

/-- Everything that a history has emitted can be told from its address. -/
theorem addressable_of_history (h : History Platform.azure.producers s grants done ctx)
    (hazure : s.platform = .azure) : ∀ r ∈ ctx.resources, r.Addressable := by
  intro r hr
  rw [h.resources_eq] at hr
  rcases List.mem_flatMap.mp hr with ⟨c, hc, hmem⟩
  rcases h.origin_of_mem hc with ⟨hp, before, horigin⟩
  exact addressable (by rw [horigin.schema_eq, hazure]) hp horigin.entity_mem horigin.generates r
    hmem

/-- Whatever a pass has emitted is a closed graph. -/
theorem closed_of_history (h : History Platform.azure.producers s grants done ctx)
    (hazure : s.platform = .azure) : Closed ctx.resources :=
  closed_of_linked h.addresses_nodup (addressable_of_history h hazure) (linked_of_history h hazure)
    fun _ hpromise => hpromise.elim

end Azure
end InfraGraph
