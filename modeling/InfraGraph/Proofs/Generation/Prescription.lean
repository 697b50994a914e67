import InfraGraph.Proofs.Aws.Prescription
import InfraGraph.Proofs.Azure.Prescription

/-!
# What a pass emits, item by item

What is generated for a work item is prescribed by the schema and the grants, on either platform.
So a pass that succeeds emits what is prescribed for its items, in whatever order it has completed
them.  Most of what is prescribed rests on the frame of the schema, which names the application and
its API but none of the lambdas, routes and timers.  Main statements:

* `Schema.prescribed`, `Schema.exists_complete` — a pass completes every item as prescribed;
* `Schema.mem_resources_iff` — so it emits what is prescribed, and nothing else;
* `Schema.frame`, `Aws.Family.prescribed_eq_frame` — producers that read nothing but the frame;
* `Aws.Function.generateFor_congr`, `Azure.FunctionApp.generateFor_congr` — what lambdas rest on.
-/

namespace InfraGraph

namespace Aws.Family

def named (name : String) : Option Family := all.find? fun a => a.producer.name == name

/-- A family is told from the name of its producer. -/
theorem named_name (a : Family) : named a.producer.name = some a := by
  cases a <;> decide

end Aws.Family

namespace Schema

/-- What is generated for an item, from names and grants. -/
def prescribed (s : Schema) (grants : Grants) (item : WorkItem) : Option Generated :=
  match s.platform with
  | .aws => (Aws.Family.named item.producer.name).bind fun a => a.prescribed s grants item.entity
  | .azure => Azure.prescribed s grants item.entity

variable {s : Schema} {library : List Declaration} {grants : Grants} {done : List Completion}
  {ctx : Context} {pass : Pass}

/-- A completion has generated what is prescribed. -/
theorem prescribed_of_mem (h : History s.platform.producers s grants done ctx) {c : Completion}
    (hc : c ∈ done) : s.prescribed grants c.item = some c.generated := by
  unfold prescribed
  cases hplatform : s.platform with
  | aws =>
      rw [hplatform] at h
      rcases Aws.exists_prescribed h hplatform hc with ⟨a, ha, _, hprescribed⟩
      rw [← ha, Aws.Family.named_name]
      exact hprescribed
  | azure =>
      rw [hplatform] at h
      exact Azure.prescribed_of_mem h hplatform hc

/-- A pass that succeeds completes every item, each as prescribed. -/
theorem exists_complete (hgrants : s.grants library = .ok grants)
    (hgen : s.generate library = .ok pass) :
    ∃ done ctx, History s.platform.producers s grants done ctx ∧
      (∀ item ∈ Schedule.items s.platform.producers s, ∃ c ∈ done, c.item = item) ∧
      pass.resources = ctx.resources ∧
      ∀ c ∈ done, s.prescribed grants c.item = some c.generated := by
  rcases generate_ok hgen with ⟨grants', done, ctx, hgrants', hist, hperm, hresources⟩
  rw [hgrants] at hgrants'
  cases hgrants'
  exact ⟨done, ctx, hist, fun item hitem => List.mem_map.mp (hperm.mem_iff.mp hitem), hresources,
    fun c hc => prescribed_of_mem hist hc⟩

/-- Every item is completed as prescribed. -/
theorem exists_prescribed (hgrants : s.grants library = .ok grants)
    (hgen : s.generate library = .ok pass) {item : WorkItem}
    (hitem : item ∈ Schedule.items s.platform.producers s) :
    ∃ g, s.prescribed grants item = some g ∧ g.resources ⊆ pass.resources := by
  rcases exists_complete hgrants hgen with ⟨done, ctx, hist, hall, hresources, hprescribed⟩
  rcases hall item hitem with ⟨c, hc, rfl⟩
  rw [hresources]
  exact ⟨c.generated, hprescribed c hc, fun r hr => hist.mem_resources hc hr⟩

/-- A pass emits what is prescribed for its items, and nothing else. -/
theorem mem_resources_iff (hgrants : s.grants library = .ok grants)
    (hgen : s.generate library = .ok pass) {r : Resource} :
    r ∈ pass.resources ↔
      ∃ item ∈ Schedule.items s.platform.producers s, ∃ g,
        s.prescribed grants item = some g ∧ r ∈ g.resources := by
  constructor
  · intro hr
    rcases exists_complete hgrants hgen with ⟨done, ctx, hist, _, hresources, hprescribed⟩
    rw [hresources, hist.resources_eq] at hr
    rcases List.mem_flatMap.mp hr with ⟨c, hc, hrc⟩
    exact ⟨c.item, hist.mem_items c hc, c.generated, hprescribed c hc, hrc⟩
  · rintro ⟨item, hitem, g, hg, hr⟩
    rcases exists_prescribed hgrants hgen hitem with ⟨g', hg', hsub⟩
    rw [hg] at hg'
    cases hg'
    exact hsub hr

/-! ## The frame of a schema -/

/-- What a schema says of the application and its API, without lambdas, routes and timers. -/
def frame (s : Schema) : Schema where
  version := ""
  name := s.name
  description := s.description
  platform := s.platform
  region := s.region
  account := s.account
  bucket := s.bucket
  api := s.api
  lambdas := .empty
  routes := ⟨[], []⟩
  timers := []
  libraryPermissions := []

/-- Frames are equal iff what is said of the application and the API is. -/
theorem frame_eq_iff {s s' : Schema} : s.frame = s'.frame ↔
    s.name = s'.name ∧ s.description = s'.description ∧ s.platform = s'.platform ∧
      s.region = s'.region ∧ s.account = s'.account ∧ s.bucket = s'.bucket ∧ s.api = s'.api := by
  simp [frame]

end Schema

variable {s s' : Schema} {grants grants' : Grants} {id : String} {l : Lambda}

namespace Aws

/-- Producers other than those of lambdas and of preflight handlers read the frame alone. -/
theorem Family.prescribed_eq_frame {a : Family} (hfunction : a ≠ function)
    (hpreflight : a ≠ preflight) (e : Entity) :
    a.prescribed s grants e = a.prescribed s.frame ⟨.empty⟩ e := by
  cases a with
  | function => exact absurd rfl hfunction
  | preflight => exact absurd rfl hpreflight
  | restApi | path | route | static | publication | timer | domain => cases e <;> rfl

/-- Most families emit by the frame alone. -/
theorem Family.prescribed_congr {a : Family} (hframe : s.frame = s'.frame)
    (hfunction : a ≠ function) (hpreflight : a ≠ preflight) (e : Entity) :
    a.prescribed s grants e = a.prescribed s' grants' e := by
  rw [a.prescribed_eq_frame hfunction hpreflight, hframe,
    ← a.prescribed_eq_frame hfunction hpreflight]

/-- The entities of these producers are parts of the API. -/
theorem Family.entities_eq_frame {a : Family} (h : a ∈ [restApi, publication, preflight, domain]) :
    a.producer.entities s = a.producer.entities s.frame := by
  simp only [List.mem_cons, List.not_mem_nil, or_false] at h
  rcases h with rfl | rfl | rfl | rfl <;> rfl

/-- What is generated for a lambda rests on the frame and the grants of the lambda. -/
theorem Function.generateFor_congr (hframe : s.frame = s'.frame)
    (hgrants : grants.of id = grants'.of id) :
    generateFor (.initial s grants) id l = generateFor (.initial s' grants') id l := by
  obtain ⟨hname, _, _, hregion, haccount, _, _⟩ := Schema.frame_eq_iff.mp hframe
  simp only [generateFor, Context.initial, hname, hregion, haccount, hgrants]

end Aws

namespace Azure

/-- Functions depend on the frame and on the grants of their lambda. -/
theorem FunctionApp.generateFor_congr (hframe : s.frame = s'.frame)
    (hgrants : grants.of id = grants'.of id) :
    generateFor (.initial s grants) id l = generateFor (.initial s' grants') id l := by
  obtain ⟨hname, _, _, hregion, haccount, _, _⟩ := Schema.frame_eq_iff.mp hframe
  simp only [generateFor, app, Context.initial, hname, hregion, haccount, hgrants]

theorem FunctionApp.idsFor_congr (hframe : s.frame = s'.frame) : idsFor s id = idsFor s' id := by
  simp only [idsFor, (Schema.frame_eq_iff.mp hframe).1]

end Azure
end InfraGraph
