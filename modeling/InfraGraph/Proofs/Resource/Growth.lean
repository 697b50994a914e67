import InfraGraph.Proofs.Resource.Counts
import InfraGraph.Proofs.Resource.Plan

/-!
# Plans where everything stored is generated again

Where every stored resource is among the new ones, unchanged, a plan keeps these and creates the
others.  Main statements:

* `Plan.changes_of_subset` — the changes of such a plan;
* `Plan.counts_of_subset`, `Plan.fields_of_subset` — how many there are of each action;
* `Plan.keep_of_subset` — where nothing else is new, everything is kept.
-/

namespace InfraGraph
namespace Plan

variable {new stored : List Resource} {app : String}

section Subset

variable (hsub : stored ⊆ new) (hnew : (new.map Resource.address).Nodup)

include hsub

/-- Where every stored address is still there, nothing is destroyed. -/
theorem gone_of_subset : gone stored new = [] := by
  refine List.filter_eq_nil_iff.mpr fun r hr => ?_
  simp [List.mem_map_of_mem (hsub hr)]

include hnew

/-- What is stored of an address that is generated again is the resource itself. -/
theorem changeOf_of_subset {r : Resource} (hr : r ∈ new) :
    changeOf (hashes stored) r = ⟨r.address, if r ∈ stored then .keep else .create⟩ := by
  rw [changeOf, get?_hashes, storedAt?]
  cases hfind : stored.reverse.find? fun t => t.address = r.address with
  | none =>
      have hnot : ¬r ∈ stored := by
        intro hmem
        have haddress := List.find?_eq_none.mp hfind r (List.mem_reverse.mpr hmem)
        simp at haddress
      simp [hnot]
  | some t =>
      have hmem : t ∈ stored := List.mem_reverse.mp (List.mem_of_find?_eq_some hfind)
      have haddress : t.address = r.address := by simpa using List.find?_some hfind
      -- both are among the new resources, where no address occurs twice
      have hsame : t = r := List.inj_on_of_nodup_map hnew (hsub hmem) hr haddress
      subst hsame
      simp [hmem]

/-- What is stored is kept, and everything else is created. -/
theorem changes_of_subset : (compare app new stored).changes =
    new.map fun r => ⟨r.address, if r ∈ stored then .keep else .create⟩ := by
  rw [compare, gone_of_subset hsub, List.map_nil, List.append_nil]
  exact List.map_congr_left fun r hr => changeOf_of_subset hsub hnew hr

/-- As many changes keep as resources are stored, and the others create. -/
theorem counts_of_subset (hstored : stored.Nodup) :
    let cs := (compare app new stored).changes
    countOf cs .update = 0 ∧ countOf cs .destroy = 0 ∧ countOf cs .keep = stored.length ∧
      countOf cs .create + stored.length = new.length := by
  intro cs
  have hchanges : cs = new.map fun r => ⟨r.address, if r ∈ stored then .keep else .create⟩ :=
    changes_of_subset hsub hnew
  have hnone : ∀ action : PlanAction, action ≠ .keep → action ≠ .create →
      countOf cs action = 0 := by
    intro action hnotkeep hnotcreate
    rw [hchanges, countOf_eq_zero_iff, List.forall_mem_map]
    intro r _
    by_cases hr : r ∈ stored <;> simp [hr, hnotkeep.symm, hnotcreate.symm]
  have hkept : (new.filter fun r => decide (r ∈ stored)).length = stored.length := by
    refine List.Perm.length_eq ?_
    refine (List.perm_ext_iff_of_nodup ((hnew.of_map _).filter _) hstored).mpr fun r => ?_
    simp only [List.mem_filter, decide_eq_true_eq]
    exact ⟨fun h => h.2, fun h => ⟨hsub h, h⟩⟩
  have hkeep : countOf cs .keep = stored.length := by
    rw [hchanges, countOf, List.countP_map, ← hkept, List.countP_eq_length_filter]
    refine congrArg _ (List.filter_congr fun r _ => ?_)
    by_cases hr : r ∈ stored <;> simp [hr]
  have hupdate := hnone .update (by decide) (by decide)
  have hdestroy := hnone .destroy (by decide) (by decide)
  have hsum := sum_countOf cs
  have hlength : cs.length = new.length := by rw [hchanges, List.length_map]
  refine ⟨hupdate, hdestroy, hkeep, ?_⟩
  omega

/-- The counts of the plan say so too, in 32 bits. -/
theorem fields_of_subset (hstored : stored.Nodup) :
    let plan := compare app new stored
    plan.toUpdate = 0 ∧ plan.toDestroy = 0 ∧ plan.unchanged = .ofNat stored.length ∧
      plan.toCreate + .ofNat stored.length = .ofNat new.length := by
  intro plan
  obtain ⟨hupdate, hdestroy, hkeep, hcreate⟩ :
      countOf plan.changes .update = 0 ∧ countOf plan.changes .destroy = 0 ∧
        countOf plan.changes .keep = stored.length ∧
        countOf plan.changes .create + stored.length = new.length :=
    counts_of_subset hsub hnew hstored
  refine ⟨congrArg UInt32.ofNat hupdate, congrArg UInt32.ofNat hdestroy,
    congrArg UInt32.ofNat hkeep, ?_⟩
  rw [← hcreate, UInt32.ofNat_add]
  rfl

/-- Where nothing else is new, everything is kept. -/
theorem keep_of_subset (hback : new ⊆ stored) :
    ∀ c ∈ (compare app new stored).changes, c.action = .keep := by
  rw [changes_of_subset hsub hnew]
  intro c hc
  obtain ⟨r, hr, rfl⟩ := List.mem_map.mp hc
  simp [hback hr]

end Subset

end Plan
end InfraGraph
