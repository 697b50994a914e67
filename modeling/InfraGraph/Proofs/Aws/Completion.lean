import InfraGraph.Proofs.Generation.Calls

/-!
# A pass for an accepted schema on AWS

The only way in which a pass for an accepted schema can fail is that two resources have the same
address.  Main statements:

* `Aws.nodup_entity_ids` — the entities of each producer are told apart by id;
* `Schema.aws_generate_error` — where a pass can fail;
* `Schema.aws_generate_ok_or_duplicate` — a pass succeeds, or two resources have the same address.
-/

namespace InfraGraph

/-! ## AWS -/

namespace Aws

variable {s : Schema}

/-- The entities of each producer are told apart by id. -/
theorem nodup_entity_ids (h : s.Accepted) :
    ∀ p ∈ Platform.aws.producers, ((p.entities s).map Entity.id).Nodup := by
  intro p hp
  simp only [Platform.producers, List.mem_cons, List.not_mem_nil, or_false] at hp
  rcases hp with rfl | rfl | rfl | rfl | rfl | rfl | rfl | rfl | rfl
  · cases hapi : s.api <;> simp [RestApi.producer, hapi]
  · cases hapi : s.api with
    | none => simp [PathResource.producer, hapi]
    | some api =>
        have hpaths := s.routePaths.nodup_toList
        simp only [PathResource.producer, hapi, Option.isNone_some, Bool.false_eq_true, if_false,
          List.map_map]
        exact (List.nodup_reverse.mpr hpaths).map fun p q he => EntityId.path_injective he
  · simp only [Function.producer, Schema.lambdaEntities, List.map_map]
    exact Distinct.nodup_map_of_key s.lambdas.distinct fun a _ b _ he =>
      EntityId.lambda_injective he
  · cases hapi : s.api with
    | none => simp [Route.producer, hapi]
    | some api =>
        simp only [Route.producer, hapi, Option.isNone_some, Bool.false_eq_true, if_false,
          List.map_map]
        refine Distinct.nodup_map_of_key h.routes_distinct fun a _ b _ he => ?_
        rcases EntityId.route_injective he with ⟨hmethod, hpath⟩
        rw [hmethod, hpath]
  · cases hapi : s.api with
    | none => simp [StaticFile.producer, hapi]
    | some api =>
        simp only [StaticFile.producer, hapi, Option.isNone_some, Bool.false_eq_true, if_false,
          List.map_map]
        exact Distinct.nodup_map_of_key h.static_distinct fun a _ b _ he =>
          EntityId.static_injective he
  · cases hapi : s.api <;> simp [Publication.producer, hapi]
  · cases hapi : s.api with
    | none => simp [Preflight.producer, hapi]
    | some api => cases hcors : api.allowCors <;> simp [Preflight.producer, hapi, hcors]
  · simp only [Timers.producer, List.map_map]
    exact Distinct.nodup_map_of_key h.timers_distinct fun a _ b _ he => EntityId.timer_injective he
  · cases hapi : s.api with
    | none => simp [DomainAlias.producer, hapi]
    | some api => cases hdns : api.dns <;> simp [DomainAlias.producer, hapi, hdns]

end Aws

namespace Schema

variable {s : Schema} {library : List Declaration}

/-- A pass can only fail at an item that generates an address twice, or one that an item completed
before has generated. -/
theorem aws_generate_error (haws : s.platform = .aws) (hvalid : s.violations = [])
    (hlibrary : ∀ d ∈ library, d.resource.platform = .aws) {e : GenerationError}
    (hgen : s.generate library = .error e) :
    ∃ grants done ctx item g before r after,
      History Platform.aws.producers s grants done ctx ∧
      item ∈ Schedule.items Platform.aws.producers s ∧
      ctx.has item.producer.name item.entity.id = false ∧
      item.producer.generate ctx item.entity = .ok g ∧ g.resources = before ++ r :: after ∧
      e = .duplicateResource r.address item.producer.name item.entity.id ∧
      (r.address ∈ ctx.addresses ∨ r.address ∈ before.map Resource.address) := by
  have haccepted := accepted_of_violations_eq_nil hvalid
  rcases generate_error hgen with hgrants | ⟨grants, done, ctx, left, _, hist, hperm, hfail⟩
  · rcases exists_grants haccepted.lambda_permissions (by rw [haws]; exact hlibrary) with
        ⟨grants, hok⟩
    rw [hok] at hgrants
    cases hgrants
  · rw [haws] at hist hperm
    have hleft : ∀ i ∈ left, i ∈ Schedule.items Platform.aws.producers s := fun i hi =>
      hperm.mem_iff.mpr (List.mem_append_right _ hi)
    rcases hfail with ⟨item, hitem, hready, next, hcomplete⟩ | ⟨_, _, rfl⟩
    · have hnot := hist.not_has_of_left (WorkItem.nodup_keys (Aws.nodup_entity_ids haccepted))
        hperm hitem
      -- of the three ways to fail only a taken address is left
      rcases WorkItem.complete_error hcomplete with
        hbad | ⟨hhas, _⟩ | ⟨g, before, r, after, hg, hsplit, he, hwhere⟩
      · rcases Aws.exists_generated hist haws haccepted (hleft item hitem) hready with ⟨g, hg⟩
        rw [hg] at hbad
        cases hbad
      · rw [hnot] at hhas
        cases hhas
      · exact ⟨grants, done, ctx, item, g, before, r, after, hist, hleft item hitem, hnot, hg,
          hsplit, he, hwhere⟩
    · exact absurd hgen generate_ne_stalled

/-- A pass succeeds, or fails because two resources have the same address. -/
theorem aws_generate_ok_or_duplicate (haws : s.platform = .aws) (hvalid : s.violations = [])
    (hlibrary : ∀ d ∈ library, d.resource.platform = .aws) :
    (∃ pass, s.generate library = .ok pass) ∨
      ∃ address producer entity,
        s.generate library = .error (.duplicateResource address producer entity) := by
  cases hgen : s.generate library with
  | ok pass => exact Or.inl ⟨pass, rfl⟩
  | error e =>
      rcases aws_generate_error haws hvalid hlibrary hgen with
          ⟨_, _, _, item, _, _, r, _, _, _, _, _, _, he, _⟩
      exact Or.inr ⟨r.address, item.producer.name, item.entity.id, by rw [he]⟩

theorem isOk_generate_shop : (shop.generate []).isOk = true := by
  decide +kernel

/-- The small application is generated. -/
theorem generate_shop_ok_or_duplicate :
    shop.violations = [] ∧ (shop.generate []).isOk = true ∧
      ((∃ pass, shop.generate [] = .ok pass) ∨ ∃ address producer entity,
        shop.generate [] = .error (.duplicateResource address producer entity)) :=
  ⟨violations_shop, isOk_generate_shop,
    aws_generate_ok_or_duplicate rfl violations_shop (by simp)⟩

end Schema
end InfraGraph
