import InfraGraph.Proofs.Generation.Chain

/-!
# Runs in lockstep

Two runs whose work items correspond to one another, and whose states keep agreeing on which items
are ready, complete corresponding items in the same order and in the same sweeps.  Main statements:

* `Schedule.Lockstep` — a correspondence that completions preserve;
* `Schedule.Lockstep.sweep`, `Schedule.Lockstep.drain` — sweeps, and runs of sweeps, keep it;
* `Schedule.Lockstep.run` — so do whole runs, with the same report.
-/

namespace InfraGraph
namespace Schedule

/-- States of two runs correspond in a way that tells which items are ready and that completing
corresponding items preserves. -/
structure Lockstep (related : Context → Context → Prop) (other : WorkItem → WorkItem)
    (work : List WorkItem) : Prop where
  ready : ∀ {ctx ctx'}, related ctx ctx' → ∀ i ∈ work, (other i).ready ctx' = i.ready ctx
  commit : ∀ {ctx ctx'} {c c' : Completion}, related ctx ctx' → c.item ∈ work →
    c'.item = other c.item → c.Fits ctx → c'.Fits ctx' → related (c.commit ctx) (c'.commit ctx')

namespace Lockstep

variable {related : Context → Context → Prop} {other : WorkItem → WorkItem}
  {work : List WorkItem} {ctx ctx' next next' : Context}

/-- A sweep of corresponding items leaves corresponding items. -/
theorem sweep {pending left left' : List WorkItem} (h : Lockstep related other work)
    (hsub : pending ⊆ work) (hctx : related ctx ctx')
    (hs : Schedule.sweep ctx pending = (next, .ok left))
    (hs' : Schedule.sweep ctx' (pending.map other) = (next', .ok left')) :
    left' = left.map other ∧ related next next' := by
  -- completions change both states, so the induction is on the items with the states at large
  induction pending generalizing ctx ctx' left left' with
  | nil =>
      cases hs
      cases hs'
      exact ⟨rfl, hctx⟩
  | cons item rest ih =>
      obtain ⟨hitem, hrest⟩ := List.cons_subset.mp hsub
      have hready := h.ready hctx item hitem
      rcases sweep_cons hs with ⟨c, rfl, hfits, hnext⟩ | ⟨_, _, _, he⟩ | ⟨hnot, outcome, hnext, he⟩
      · rcases sweep_cons hs' with ⟨c', hc', hfits', hnext'⟩ | ⟨_, _, _, he⟩ | ⟨hnot', _⟩
        · exact ih hrest (h.commit hctx hitem hc' hfits hfits') hnext hnext'
        · cases he
        · rw [hready, hfits.ready] at hnot'
          cases hnot'
      · cases he
      · rcases sweep_cons hs' with ⟨c', hc', hfits', _⟩ | ⟨_, _, _, he'⟩ |
          ⟨_, outcome', hnext', he'⟩
        · have hready' := hfits'.ready
          rw [hc', hready, hnot] at hready'
          cases hready'
        · cases he'
        · cases outcome with
          | error e => cases he
          | ok left =>
              cases outcome' with
              | error e => cases he'
              | ok left' =>
                  cases he
                  cases he'
                  obtain ⟨hleft, hrelated⟩ := ih hrest hctx hnext hnext'
                  exact ⟨by rw [hleft, List.map_cons], hrelated⟩

/-- Corresponding items are drained in the same number of sweeps. -/
theorem drain {pending : List WorkItem} {sweeps total total' : Nat}
    (h : Lockstep related other work) (hsub : pending ⊆ work) (hctx : related ctx ctx')
    (hd : Schedule.drain ctx pending sweeps = (next, .ok total))
    (hd' : Schedule.drain ctx' (pending.map other) sweeps = (next', .ok total')) :
    total' = total ∧ related next next' := by
  induction hn : pending.length using Nat.strongRecOn generalizing pending sweeps ctx ctx' with
  | _ n ih =>
      subst hn
      rcases drain_cases hd with ⟨rfl, rfl, he⟩ | ⟨_, _, he⟩ | ⟨mid, left, hsweep, hless, hrest⟩ |
        ⟨_, _, _, _, he⟩
      · rcases drain_cases hd' with ⟨_, rfl, he'⟩ | ⟨_, _, he'⟩ | ⟨_, _, _, hless, _⟩ | ⟨_, hne, _⟩
        · cases he
          cases he'
          exact ⟨rfl, hctx⟩
        · cases he'
        · cases hless
        · exact absurd rfl hne
      · cases he
      · rcases drain_cases hd' with ⟨hnil, _⟩ | ⟨_, _, he'⟩ | ⟨mid', left', hsweep', _, hrest'⟩ |
          ⟨_, _, _, _, he'⟩
        · rw [List.map_eq_nil_iff.mp hnil] at hless
          cases hless
        · cases he'
        · obtain ⟨rfl, hmid⟩ := h.sweep hsub hctx hsweep hsweep'
          have hleft := (sweep_sublist hsweep).subset
          exact ih _ hless (List.Subset.trans hleft hsub) hmid hrest hrest' rfl
        · cases he'
      · cases he

/-- Runs in lockstep give the same report, and end in states that correspond. -/
theorem run {producers producers' : List Producer} {report report' : SweepReport}
    (h : Lockstep related other (items producers ctx.schema))
    (hitems : items producers' ctx'.schema = (items producers ctx.schema).map other)
    (hctx : related ctx ctx') (hr : Schedule.run producers ctx = (next, .ok report))
    (hr' : Schedule.run producers' ctx' = (next', .ok report')) :
    report' = report ∧ related next next' := by
  obtain ⟨mid, result, hd⟩ : ∃ mid result, Schedule.drain ctx (items producers ctx.schema) 0 =
      (mid, result) := ⟨_, _, rfl⟩
  obtain ⟨mid', result', hd'⟩ : ∃ mid result, Schedule.drain ctx' (items producers' ctx'.schema) 0 =
      (mid, result) := ⟨_, _, rfl⟩
  rw [run_eq hd] at hr
  rw [run_eq hd'] at hr'
  cases result with
  | error e => cases hr
  | ok sweeps =>
      cases result' with
      | error e => cases hr'
      | ok sweeps' =>
          cases hr
          cases hr'
          rw [hitems] at hd'
          obtain ⟨rfl, hrelated⟩ := h.drain (List.Subset.refl _) hctx hd hd'
          exact ⟨by rw [hitems, List.length_map], hrelated⟩

end Lockstep
end Schedule
end InfraGraph
