import InfraGraph.Proofs.Azure.Closed
import InfraGraph.Proofs.Schema.Acceptance

/-!
# Ready items succeed on Azure, and every item becomes ready

Only the binding of a route waits for something, the app of its lambda, and apps wait for nothing.
Main statements:

* `FunctionApp.ids_of_has` — an app that is registered can be read;
* `exists_generated` — a ready item of an accepted schema generates something;
* `ready_of_all_completed` — where every ready item has been completed, every item is ready.
-/

namespace InfraGraph
namespace Azure

variable {s : Schema} {grants : Grants} {done : List Completion} {ctx : Context}

theorem FunctionApp.ids_of_has (h : History Platform.azure.producers s grants done ctx)
    {id : String} (hhas : ctx.has FunctionApp.name (.lambda id) = true) :
    ∃ app, FunctionApp.ids ctx id = .ok app := by
  obtain ⟨output, hl⟩ := Context.has_iff.mp hhas
  obtain ⟨e, g, before, ⟨hentity, _, hgen, _, _⟩, _, rfl⟩ :=
    h.exists_origin (p := FunctionApp.producer) (by simp [Platform.producers]) hl
  obtain ⟨id', l, _, rfl⟩ := FunctionApp.mem_entities_iff.mp hentity
  rw [FunctionApp.generate_eq_ok_iff] at hgen
  subst hgen
  exact ⟨_, FunctionApp.ids_eq_ok_iff.mpr hl⟩

/-- A ready item of an accepted schema generates something. -/
theorem exists_generated (h : History Platform.azure.producers s grants done ctx)
    (hazure : s.platform = .azure) (haccepted : s.Accepted) {item : WorkItem}
    (hitem : item ∈ Schedule.items Platform.azure.producers s) (hready : item.ready ctx = true) :
    ∃ g, item.producer.generate ctx item.entity = .ok g := by
  have hget : ∀ id, s.hasLambda id = true → ∃ l, ctx.schema.lambdas.get? id = some l := by
    intro id hid
    rw [h.schema_eq]
    exact Option.isSome_iff_exists.mp hid
  rcases item with ⟨p, e⟩
  obtain ⟨hp, he⟩ := Schedule.mem_items_iff.mp hitem
  simp only at hp he
  simp only [WorkItem.ready] at hready ⊢
  simp only [Platform.producers, List.mem_cons, List.not_mem_nil, or_false] at hp
  rcases hp with rfl | rfl | rfl
  · obtain ⟨id, l, _, rfl⟩ := FunctionApp.mem_entities_iff.mp he
    exact ⟨_, FunctionApp.generate_eq_ok_iff.mpr rfl⟩
  · obtain ⟨r, hr, rfl⟩ := HttpBinding.mem_entities_iff.mp he
    obtain ⟨l, hl⟩ := hget r.lambda (haccepted.route_lambda r hr)
    have hlambda : ctx.hasLambda r.lambda = true := by
      simp [Context.hasLambda, OrderedMap.contains, hl]
    have hthere : ctx.has FunctionApp.name (.lambda r.lambda) = true := by
      simpa [HttpBinding.producer, FunctionApp.isReady, hlambda] using hready
    obtain ⟨app, happ⟩ := FunctionApp.ids_of_has h hthere
    exact ⟨_, HttpBinding.generate_eq_ok_iff.mpr ⟨l, app, hl, happ, rfl⟩⟩
  · obtain ⟨t, ht, rfl⟩ := Timers.mem_entities_iff.mp he
    obtain ⟨l, hl⟩ := hget t.lambda (haccepted.timer_lambda t ht)
    exact ⟨_, (Timers.generate_azure_eq_ok_iff (by rw [h.schema_eq, hazure])).mpr ⟨l, hl, rfl⟩⟩

/-- Where every ready item has been completed, every item is ready, whether the schema is accepted
or not. -/
theorem ready_of_all_completed (h : History Platform.azure.producers s grants done ctx)
    (hazure : s.platform = .azure)
    (hall : ∀ i ∈ Schedule.items Platform.azure.producers s, i.ready ctx = true →
      ∃ c ∈ done, c.item = i)
    {item : WorkItem} (hitem : item ∈ Schedule.items Platform.azure.producers s) :
    item.ready ctx = true := by
  rcases item with ⟨p, e⟩
  obtain ⟨hp, he⟩ := Schedule.mem_items_iff.mp hitem
  simp only at hp he
  simp only [WorkItem.ready]
  simp only [Platform.producers, List.mem_cons, List.not_mem_nil, or_false] at hp
  rcases hp with rfl | rfl | rfl
  · rfl
  · obtain ⟨r, _, rfl⟩ := HttpBinding.mem_entities_iff.mp he
    simp only [HttpBinding.producer, FunctionApp.isReady, Bool.or_eq_true, Bool.not_eq_true']
    cases hlambda : ctx.hasLambda r.lambda with
    | false => exact Or.inl rfl
    | true =>
        right
        obtain ⟨l, hl⟩ := Option.isSome_iff_exists.mp hlambda
        rw [h.schema_eq, OrderedMap.get?_eq_some_iff] at hl
        -- the app of the lambda waits for nothing, so it has been completed
        have happ : ⟨FunctionApp.producer, .lambda r.lambda l⟩ ∈
            Schedule.items Platform.azure.producers s :=
          Schedule.mem_items_iff.mpr
            ⟨by simp [Platform.producers], FunctionApp.mem_entities_iff.mpr ⟨_, l, hl, rfl⟩⟩
        have hthere := h.has_of_completed (hall _ happ rfl)
        exact hthere
  · obtain ⟨t, _, rfl⟩ := Timers.mem_entities_iff.mp he
    simp only [Timers.producer, h.schema_eq, hazure]

end Azure
end InfraGraph
