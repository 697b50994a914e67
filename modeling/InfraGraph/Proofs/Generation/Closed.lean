import InfraGraph.Proofs.Aws.Closed
import InfraGraph.Proofs.Azure.Closed
import InfraGraph.Proofs.Schema.Acceptance

/-!
# A pass emits a closed graph

On AWS handlers may refer to resources that are emitted later, and what makes the graph closed is
that a pass completes everything; on Azure nothing refers forward.  Main statement:

* `Schema.closed_of_generate` — what a pass emits is a closed graph.
-/

namespace InfraGraph
namespace Schema

variable {s : Schema} {library : List Declaration}

/-- Whatever a pass emits, on either platform, is a closed graph. -/
theorem closed_of_generate {pass : Pass} (h : s.generate library = .ok pass) :
    Resource.Closed pass.resources := by
  rcases generate_ok h with ⟨grants, done, ctx, _, hist, hperm, hresources⟩
  rw [hresources]
  cases hplatform : s.platform with
  | aws =>
      rw [hplatform] at hist hperm
      refine Aws.closed_of_completed hist hplatform fun item hitem => ?_
      exact List.mem_map.mp (hperm.mem_iff.mp hitem)
  | azure =>
      rw [hplatform] at hist
      exact Azure.closed_of_history hist hplatform

/-- In the small application the handlers of a path stand before the resource of that path, which
they refer to. -/
theorem closed_of_generate_shop : ∃ pass, shop.generate [] = .ok pass ∧
    pass.resources.length = 31 ∧ Resource.Closed pass.resources := by
  have hlength : (shop.generate []).toOption.map (fun pass => pass.resources.length) = some 31 := by
    decide +kernel
  cases hgen : shop.generate [] with
  | ok pass =>
      rw [hgen] at hlength
      exact ⟨pass, rfl, Option.some.inj hlength, closed_of_generate hgen⟩
  | error e =>
      rw [hgen] at hlength
      cases hlength

end Schema
end InfraGraph
