import InfraGraph.Proofs.Generation.Prescription
import Mathlib.Data.List.Perm.Basic

/-!
# What a pass emits of one sort

In whatever order a pass completes its items, it emits what is prescribed for them.  So what it
emits of one sort, a kind say, is what the families with that sort prescribe, in another order.
Main statements:

* `Schema.perm_prescribed` — the resources of a pass, on either platform;
* `Aws.Family.resources`, `Aws.Family.map_filter_resources` — what is prescribed for one family;
* `Schema.aws_perm_filter` — what is emitted of a kind, by the families that have the kind.
-/

namespace InfraGraph

variable {s : Schema} {library : List Declaration} {grants : Grants} {pass : Pass} {e : Entity}

/-- Resources of what may have been generated. -/
def Generated.resourcesOf (generated : Option Generated) : List Resource :=
  (generated.map Generated.resources).getD []

/-- A pass emits what is prescribed for its items, in some order. -/
theorem Schema.perm_prescribed (hgrants : s.grants library = .ok grants)
    (hgen : s.generate library = .ok pass) :
    pass.resources.Perm ((Schedule.items s.platform.producers s).flatMap fun item =>
      Generated.resourcesOf (s.prescribed grants item)) := by
  rcases generate_ok hgen with ⟨grants', done, ctx, hgrants', hist, hperm, hresources⟩
  cases hgrants.symm.trans hgrants'
  have hdone : ∀ c ∈ done,
      c.generated.resources = Generated.resourcesOf (s.prescribed grants c.item) := fun c hc => by
    simp [Generated.resourcesOf, prescribed_of_mem hist hc]
  have hcompleted : pass.resources = (done.map Completion.item).flatMap fun item =>
      Generated.resourcesOf (s.prescribed grants item) := by
    calc pass.resources
        = done.flatMap fun c => c.generated.resources := by rw [hresources, hist.resources_eq]
      _ = done.flatMap fun c => Generated.resourcesOf (s.prescribed grants c.item) :=
          List.flatMap_congr hdone
      _ = _ := by rw [List.flatMap_map]
  rw [hcompleted]
  exact hperm.symm.flatMap_right _

namespace Aws
namespace Family

/-- What is prescribed for the entities of a family. -/
def resources (s : Schema) (grants : Grants) (a : Family) : List Resource :=
  (a.producer.entities s).flatMap fun e => Generated.resourcesOf (a.prescribed s grants e)

/-- A family prescribes resources of its kinds only. -/
theorem kind_mem_of_prescribed (a : Family) {g : Generated} (hg : a.prescribed s grants e = some g)
    {r : Resource} (hr : r ∈ g.resources) : r.kind ∈ a.kinds := by
  have hkinds : ∀ {rs : List Resource} {kinds : List String},
      rs.map Resource.kind = kinds → r ∈ rs → r.kind ∈ kinds := by
    rintro rs _ rfl hr
    exact List.mem_map_of_mem hr
  -- of each family one sort of entities has something prescribed
  cases a <;> cases e <;> try cases hg
  case restApi.api.refl | function.lambda.refl | timer.timer.refl => exact hkinds rfl hr
  case preflight.api.refl =>
    rcases List.mem_flatMap.mp hr with ⟨p, _, hp⟩
    exact hkinds rfl hp
  all_goals
    simp only [prescribed, Option.bind_eq_bind, Option.bind_eq_some_iff, Option.pure_def,
      Option.some.injEq] at hg
  case path.path =>
    rcases hg with ⟨_, _, _, _, _, _, rfl⟩
    exact hkinds rfl hr
  case static.static =>
    rcases hg with ⟨_, _, _, _, rfl⟩
    exact hkinds rfl hr
  all_goals
    rcases hg with ⟨_, _, rfl⟩
    exact hkinds rfl hr

/-- A test that fails on everything that a family prescribes leaves nothing. -/
theorem filter_resources_eq_nil {a : Family} {test : Resource → Bool}
    (hgenerated : ∀ e g, a.prescribed s grants e = some g → g.resources.filter test = []) :
    (a.resources s grants).filter test = [] := by
  rw [resources, List.filter_flatMap, List.flatMap_eq_nil_iff]
  intro e _
  cases hg : a.prescribed s grants e with
  | none => rfl
  | some g => exact hgenerated e g hg

/-- Nothing of a kind is prescribed by families that lack the kind. -/
theorem filter_resources_eq_nil_of_kind {a : Family} {kind : String} (hkind : ¬kind ∈ a.kinds)
    {test : Resource → Bool} (htest : ∀ r, test r = true → r.kind = kind) :
    (a.resources s grants).filter test = [] := by
  refine filter_resources_eq_nil fun e g hg => List.filter_eq_nil_iff.mpr fun r hr hpasses => ?_
  exact hkind (htest r hpasses ▸ a.kind_mem_of_prescribed hg hr)

/-- Where each entity has one resource that passes a test, as many are prescribed as there are
entities. -/
theorem map_filter_resources {α β : Type} {a : Family} {xs : List α} (entity : α → Entity)
    {test : Resource → Bool} {value : Resource → β} {f : α → β}
    (hentities : a.producer.entities s = xs.map entity)
    (hgenerated : ∀ x ∈ xs, ∃ g, a.prescribed s grants (entity x) = some g ∧
      (g.resources.filter test).map value = [f x]) :
    ((a.resources s grants).filter test).map value = xs.map f := by
  rw [resources, hentities, List.flatMap_map, List.filter_flatMap, List.map_flatMap,
    List.map_eq_flatMap]
  refine List.flatMap_congr fun x hx => ?_
  rcases hgenerated x hx with ⟨g, hg, hvalue⟩
  simpa [Generated.resourcesOf, hg] using hvalue

end Family
end Aws

namespace Schema

/-- What a pass emits of a kind, by the families that have the kind. -/
theorem aws_perm_filter (haws : s.platform = .aws) (hgrants : s.grants library = .ok grants)
    (hgen : s.generate library = .ok pass) {kind : String} {test : Resource → Bool}
    (htest : ∀ r, test r = true → r.kind = kind) :
    (pass.resources.filter test).Perm
      ((Aws.Family.all.filter fun a => kind ∈ a.kinds).flatMap fun a =>
        (a.resources s grants).filter test) := by
  have hprescribed : (Schedule.items s.platform.producers s).flatMap (fun item =>
      Generated.resourcesOf (s.prescribed grants item)) =
        Aws.Family.all.flatMap (Aws.Family.resources s grants) := by
    simp only [Schedule.items, haws, Aws.Family.producers_eq, List.flatMap_map, List.flatMap_assoc,
      prescribed, Aws.Family.named_name, Option.bind_some]
    rfl
  have hothers : ∀ families : List Aws.Family,
      (families.flatMap fun a => (a.resources s grants).filter test) =
        (families.filter fun a => kind ∈ a.kinds).flatMap fun a =>
          (a.resources s grants).filter test := by
    intro families
    induction families with
    | nil => rfl
    | cons a rest ih =>
        by_cases hkind : kind ∈ a.kinds
        · simp [hkind, ih]
        · simp [hkind, ih, Aws.Family.filter_resources_eq_nil_of_kind hkind htest]
  have hperm := (perm_prescribed hgrants hgen).filter test
  rwa [hprescribed, List.filter_flatMap, hothers] at hperm

end Schema
end InfraGraph
