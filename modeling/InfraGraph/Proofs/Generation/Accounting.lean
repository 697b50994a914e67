import InfraGraph.Proofs.Aws.Completion
import InfraGraph.Proofs.Generation.Trace

/-!
# The account of a run

Nothing is assumed of the producers: an item may become ready and unready again, generators may
fail, and keys and addresses may clash.  Whatever happens, a run calls the generator of an item once
at most, ends after as many sweeps as there are items at the latest, and leaves just what the
completed items have left.  Main statements:

* `Schedule.placed_of_perm` — calls for distinct places;
* `Schedule.Adds` — what completions leave;
* `Schedule.CompletesAll`, `Schedule.FailsAfter` — the two ways a run can end;
* `Schedule.run_accounts` — the account of every run.
-/

namespace InfraGraph
namespace Schedule

variable {producers : List Producer} {ctx next : Context}

/-! ## Places -/

/-- Calls for some of the work, each item once at most, are calls for distinct places, and each for
the item that stands there. -/
theorem placed_of_perm {work : List WorkItem} {calls : List Call} {rest : List (WorkItem × Nat)}
    (h : work.zipIdx.Perm (calls.map Call.placed ++ rest)) :
    (calls.map Call.place).Nodup ∧ ∀ call ∈ calls, work[call.place]? = some call.item := by
  constructor
  · have hplaces := h.map Prod.snd
    rw [List.map_append, List.map_map, List.zipIdx_map_snd] at hplaces
    have hnodup := hplaces.nodup_iff.mp List.nodup_range'
    exact (List.nodup_append.mp hnodup).1
  · intro call hcall
    have hmem : call.placed ∈ work.zipIdx :=
      h.mem_iff.mpr (List.mem_append_left _ (List.mem_map_of_mem hcall))
    exact List.mk_mem_zipIdx_iff_getElem?.mp hmem

/-! ## The account of a run -/

/-- The outputs and resources of completions are added, in their order, and nothing else. -/
structure Adds (done : List (Completion × Nat)) (ctx next : Context) : Prop where
  outputs_eq : next.outputs = ctx.outputs ++ done.map fun d => d.1.registration
  resources_eq : next.resources = ctx.resources ++ done.flatMap fun d => d.1.generated.resources

/-- Completions one after the other add what they generate. -/
theorem Adds.of_chain {done : List (Completion × Nat)} (h : Chain ctx (done.map Prod.fst) next) :
    Adds done ctx next := by
  constructor
  · rw [h.outputs_eq, List.map_map]
    rfl
  · rw [h.resources_eq, List.flatMap_map]

/-- A run has called for every item once, and added what was generated. -/
structure CompletesAll (work : List WorkItem) (ctx : Context) (calls : List (List Call))
    (next : Context) : Prop where
  each_once : (calls.flatten.map Call.place).Perm (List.range work.length)
  completed_eq : calls.flatten.length = work.length
  adds : ∃ done, calls.flatten = logged done ∧ Adds done ctx next
  no_sweep_iff : calls.length = 0 ↔ work = []
  sweeps_le : calls.length ≤ calls.flatten.length

/-- A run has added what the items completed before an error have generated.  An item of which one
address is taken has left its output, and its resources up to that one; any other error leaves
nothing. -/
inductive FailsAfter (done : List (Completion × Nat)) (ctx next : Context) :
    List Call → GenerationError → Prop where
  | stalled (stuck : List StuckItem) :
      Adds done ctx next → FailsAfter done ctx next (logged done) (.stalled stuck)
  | generate (item : WorkItem) (place : Nat) (e : GenerationError) :
      Adds done ctx next → FailsAfter done ctx next (logged done ++ [⟨item, place, .error e⟩]) e
  | output (item : WorkItem) (place : Nat) (g : Generated) :
      Adds done ctx next →
        FailsAfter done ctx next (logged done ++ [⟨item, place, .ok g⟩])
          (.duplicateOutput item.producer.name item.entity.id)
  | resource (item : WorkItem) (place : Nat) (g : Generated) (mid : Context)
      (before : List Resource) (r : Resource) :
      Adds done ctx mid → mid.FirstTaken g.resources before r →
        next.outputs = mid.outputs ++ [⟨item.producer.name, item.entity.id, g.output⟩] →
        next.resources = mid.resources ++ before →
          FailsAfter done ctx next (logged done ++ [⟨item, place, .ok g⟩])
            (.duplicateResource r.address item.producer.name item.entity.id)

/-- An item that fails leaves what its error tells. -/
theorem FailsAfter.of_complete {done : List (Completion × Nat)} {mid : Context} {item : WorkItem}
    {place : Nat} {e : GenerationError} (hdone : Adds done ctx mid)
    (hfail : item.complete mid = (next, .error e)) :
    FailsAfter done ctx next (logged done ++ [item.call place mid]) e := by
  unfold WorkItem.call
  rcases WorkItem.complete_refused hfail with ⟨hg, rfl⟩ | ⟨g, hg, _, rfl, rfl⟩ |
    ⟨g, before, r, hg, _, hfirst, rfl, rfl⟩
  · rw [hg]
    exact .generate item place e hdone
  · rw [hg]
    exact .output item place g hdone
  · rw [hg]
    exact .resource item place g mid before r hdone hfirst rfl rfl

/-- Every run ends, after as many sweeps as there are items at the latest.  It calls for each item
once at most; without error it has completed all items, and with an error it has kept what was
completed before. -/
theorem run_accounts {calls : List (List Call)} {outcome : Except GenerationError Unit}
    (h : trace producers ctx = (calls, next, outcome)) :
    run producers ctx = (next, outcome.map fun _ => ⟨calls.length, calls.flatten.length⟩) ∧
      calls.length ≤ (items producers ctx.schema).length ∧
      (calls.flatten.map Call.place).Nodup ∧
      (∀ call ∈ calls.flatten, (items producers ctx.schema)[call.place]? = some call.item) ∧
      (outcome = .ok () → CompletesAll (items producers ctx.schema) ctx calls next) ∧
      ∀ e, outcome = .error e → ∃ done, FailsAfter done ctx next calls.flatten e := by
  have hrun := run_of_trace h
  unfold trace at h
  cases outcome with
  | ok u =>
      obtain ⟨hlength, hnone, done, hcalls, hdone, hperm⟩ := tracedDrain_ok h
      -- nothing is left, so the calls are for all places
      have hplaced := placed_of_perm (hperm.trans (by rw [List.append_nil]))
      have hcompleted : calls.flatten.length = (items producers ctx.schema).length := by
        rw [← List.length_map Call.placed, ← hperm.length_eq, List.length_zipIdx]
      rw [List.length_zipIdx] at hlength
      refine ⟨by rw [hrun, hcompleted], hlength, hplaced.1, hplaced.2, ?_, by simp⟩
      intro _
      refine ⟨?_, hcompleted, ⟨done, hcalls, .of_chain hdone⟩, ?_, by rwa [hcompleted]⟩
      · have hplaces := hperm.map Prod.snd
        rw [List.zipIdx_map_snd, List.map_map, ← List.range_eq_range'] at hplaces
        exact hplaces.symm
      · rw [List.length_eq_zero_iff, hnone, List.zipIdx_eq_nil_iff]
  | error e =>
      obtain ⟨hlength, done, mid, rest, hdone, hperm, hend⟩ := tracedDrain_error h
      have hplaced := placed_of_perm hperm
      rw [List.length_zipIdx] at hlength
      refine ⟨hrun, hlength, hplaced.1, hplaced.2, by simp, ?_⟩
      intro e' he
      cases he
      rcases hend with ⟨item, place, hcalls, _, hfail⟩ | ⟨hcalls, rfl, _, _, _, rfl⟩
      · rw [hcalls]
        exact ⟨done, .of_complete (.of_chain hdone) hfail⟩
      · rw [hcalls]
        exact ⟨done, .stalled _ (.of_chain hdone)⟩

/-- The account of a run for the small application. -/
theorem run_accounts_shop :
    ∃ grants calls next,
      trace Platform.aws.producers (.initial Schema.shop grants) = (calls, next, .ok ()) ∧
      run Platform.aws.producers (.initial Schema.shop grants) =
        (next, .ok ⟨calls.length, calls.flatten.length⟩) ∧
      CompletesAll (items Platform.aws.producers Schema.shop) (.initial Schema.shop grants)
        calls next := by
  obtain ⟨pass, hpass⟩ := exists_of_isOk Schema.isOk_generate_shop
  obtain ⟨grants, ctx, _, hrun, _, _⟩ := Schema.generate_run hpass
  obtain ⟨calls, next, outcome, h⟩ : ∃ calls next outcome,
      trace Platform.aws.producers (.initial Schema.shop grants) = (calls, next, outcome) :=
    ⟨_, _, _, rfl⟩
  obtain ⟨haccount, _, _, _, hall, _⟩ := run_accounts h
  have hsame : (ctx, Except.ok pass.report) = (next, outcome.map _) := hrun.symm.trans haccount
  cases outcome with
  | error e => cases (Prod.mk.inj hsame).2
  | ok u => exact ⟨grants, calls, next, h, haccount, hall rfl⟩

end Schedule
end InfraGraph
