import InfraGraph.Proofs.Access
import InfraGraph.Proofs.Azure.Readiness
import InfraGraph.Proofs.Generation.Coverage

/-!
# Runs on one context, one after the other

A context may be handed to any number of runs, of any of the producers, and each goes on with what
the ones before have left, those that failed included.  None of them reads what is not there.  And
the runs of a pass, with the producers of the platform, never get stuck.  Main statements:

* `Schedule.runs` — the results of runs on one context;
* `Schedule.run_keeps_supported`, `Schedule.run_supported` — a run keeps the state supported and
  reads only what is there;
* `Schema.generate_ne_stalled` — a pass is never stuck;
* `Schema.reads_covered` — both, for all runs and all passes.
-/

namespace InfraGraph

variable {s : Schema} {ctx next : Context}

/-- Completions of the producers keep the state supported. -/
theorem Chain.supported {done : List Completion} (h : Chain ctx done next)
    (hproducers : ∀ c ∈ done, c.item.producer ∈ Producer.all) (hctx : ctx.Supported s) :
    next.Supported s := by
  apply h.preserves _ hctx
  intro c hc state hstate hfits
  exact hstate.complete (hproducers c hc) hfits.complete_eq

namespace Schedule

/-- Results of runs on one context, each beginning where the one before has ended. -/
def runs : List (List Producer) → Context → List (Except GenerationError SweepReport)
  | [], _ => []
  | producers :: rest, ctx => (run producers ctx).2 :: runs rest (run producers ctx).1

/-- A run of the producers keeps the state supported. -/
theorem run_keeps_supported {producers : List Producer}
    {result : Except GenerationError SweepReport}
    (hproducers : ∀ p ∈ producers, p ∈ Producer.all) (hctx : ctx.Supported s)
    (hrun : run producers ctx = (next, result)) : next.Supported s := by
  refine run_preserves ?_ hctx hrun
  intro item hitem state reached outcome hstate hcomplete
  exact hstate.complete (hproducers _ (mem_items_iff.mp hitem).1) hcomplete

/-- A run keeps the state supported, and fails for want of an output only by being stuck. -/
theorem run_supported {producers : List Producer} {result : Except GenerationError SweepReport}
    (hproducers : ∀ p ∈ producers, p ∈ Producer.all) (hctx : ctx.Supported s)
    (hrun : run producers ctx = (next, result)) :
    next.Supported s ∧ ∀ e, result = .error e → e.isMissing = true →
      ∃ left, e = .stalled left := by
  refine ⟨run_keeps_supported hproducers hctx hrun, ?_⟩
  intro e he hmissing
  subst he
  obtain ⟨done, mid, left, hdone, hperm, hfail⟩ := run_error hrun
  have hitem : ∀ i ∈ done.map Completion.item ++ left, i.producer ∈ Producer.all := fun i hi =>
    hproducers _ (mem_items_iff.mp (hperm.mem_iff.mpr hi)).1
  rcases hfail with ⟨item, hleft, hready, hcomplete⟩ | ⟨_, _, _, _, rfl⟩
  · have hmid : mid.Supported s := hdone.supported
      (fun c hc => hitem _ (List.mem_append_left _ (List.mem_map_of_mem hc))) hctx
    rw [WorkItem.complete_error_of_ready hmid (hitem _ (List.mem_append_right _ hleft)) hready
      hcomplete] at hmissing
    cases hmissing
  · exact ⟨_, rfl⟩

/-- No run reads an output that is not there, whatever the runs before have left. -/
theorem runs_read_registered {calls : List (List Producer)}
    (hcalls : ∀ call ∈ calls, ∀ p ∈ call, p ∈ Producer.all) (hctx : ctx.Supported s) :
    ∀ result ∈ runs calls ctx, ∀ producer entity,
      result ≠ .error (.missingOutput producer entity) := by
  -- the state that a run ends in is supported, so the next run may begin there
  induction calls generalizing ctx with
  | nil =>
      intro result hresult
      cases hresult
  | cons producers rest ih =>
      obtain ⟨hproducers, hrest⟩ := List.forall_mem_cons.mp hcalls
      obtain ⟨next, outcome, hrun⟩ : ∃ next outcome, run producers ctx = (next, outcome) :=
        ⟨_, _, rfl⟩
      obtain ⟨hnext, hmissing⟩ := run_supported hproducers hctx hrun
      simp only [runs, hrun]
      intro result hresult producer entity
      rcases List.mem_cons.mp hresult with rfl | hresult
      · intro he
        obtain ⟨left, hstalled⟩ := hmissing _ he rfl
        cases hstalled
      · exact ih hrest hnext result hresult producer entity

end Schedule

namespace Schema

variable {library : List Declaration}

/-- Where all that is ready has been completed, nothing of a pass is left. -/
theorem ready_of_all_completed {grants : Grants} {done : List Completion}
    (h : History s.platform.producers s grants done ctx)
    (hall : ∀ i ∈ Schedule.items s.platform.producers s, i.ready ctx = true →
      ∃ c ∈ done, c.item = i)
    {item : WorkItem} (hitem : item ∈ Schedule.items s.platform.producers s) :
    item.ready ctx = true := by
  cases hplatform : s.platform with
  | aws =>
      rw [hplatform] at h hall hitem
      exact Aws.ready_of_all_completed h hplatform hall hitem
  | azure =>
      rw [hplatform] at h hall hitem
      exact Azure.ready_of_all_completed h hplatform hall hitem

/-- A pass is never stuck, whether the schema is accepted or not. -/
theorem generate_ne_stalled {left : List StuckItem} :
    s.generate library ≠ .error (.stalled left) := by
  intro hgen
  rcases generate_error hgen with hgrants | ⟨grants, done, ctx, left, _, hist, hperm, hfail⟩
  · obtain ⟨kind, location, he⟩ := grants_error hgrants
    cases he
  · have hproducer : ∀ i ∈ Schedule.items s.platform.producers s,
        i.producer ∈ Producer.all := fun i hi =>
      s.platform.producers_subset_all (Schedule.mem_items_iff.mp hi).1
    rcases hfail with ⟨item, hitem, hready, next, hcomplete⟩ | ⟨hne, hstuck, _⟩
    · -- an item that is ready fails for other reasons
      have hsupported : ctx.Supported s :=
        hist.chain.supported (fun c hc => hproducer _ (hist.mem_items c hc))
          (Context.Supported.initial s grants)
      have hmissing := WorkItem.complete_error_of_ready hsupported
        (hproducer item (hperm.mem_iff.mpr (List.mem_append_right _ hitem))) hready hcomplete
      cases hmissing
    · -- all that is ready has been completed, so what is left would be ready too
      have hall := Schedule.completed_of_ready hperm hstuck
      obtain ⟨i, hi⟩ := List.exists_mem_of_ne_nil _ hne
      have hready := ready_of_all_completed hist hall
        (hperm.mem_iff.mpr (List.mem_append_right _ hi))
      rw [hstuck i hi] at hready
      cases hready

/-- Readiness covers every read: no run of any of the producers, after any runs on the same context,
reads an output that is not there, and no pass is ever stuck. -/
theorem reads_covered :
    (∀ (s : Schema) (grants : Grants) (calls : List (List Producer)),
      (∀ call ∈ calls, ∀ p ∈ call, p ∈ Producer.all) →
        ∀ result ∈ Schedule.runs calls (.initial s grants), ∀ producer entity,
          result ≠ .error (.missingOutput producer entity)) ∧
      ∀ (s : Schema) (library : List Declaration) (left : List StuckItem),
        s.generate library ≠ .error (.stalled left) := by
  constructor
  · intro s grants calls hcalls
    exact Schedule.runs_read_registered hcalls (Context.Supported.initial s grants)
  · intro s library left
    exact generate_ne_stalled

/-- Runs on the small application: one that is stuck before its path has a parent, one that emits
the REST API and fails to emit it again, and one that completes what the others have left. -/
def shopCalls : List (List Producer) :=
  [[Aws.DomainAlias.producer, Aws.PathResource.producer],
    [Aws.RestApi.producer, Aws.RestApi.producer],
    [Aws.DomainAlias.producer, Aws.Route.producer, Aws.PathResource.producer,
      Aws.Publication.producer, Aws.Function.producer]]

/-- A run that stalls and one that is refused do not keep the third from completing, and no
generator reads too early. -/
theorem reads_covered_shop :
    (∀ call ∈ shopCalls, ∀ p ∈ call, p ∈ Producer.all) ∧
      Schedule.runs shopCalls (.initial shop ⟨.empty⟩) =
        [.error (.stalled [⟨"dns_alias", ⟨"dns:api.shop.example"⟩⟩,
            ⟨"api_resource", ⟨"path:/users/\x7bid\x7d"⟩⟩, ⟨"api_resource", ⟨"path:/users"⟩⟩]),
          .error (.duplicateOutput "rest_api" ⟨"api:shop-api"⟩), .ok ⟨3, 6⟩] ∧
      (∀ result ∈ Schedule.runs shopCalls (.initial shop ⟨.empty⟩), ∀ producer entity,
        result ≠ .error (.missingOutput producer entity)) ∧
      ∀ left, shop.generate [] ≠ .error (.stalled left) := by
  have hcalls : ∀ call ∈ shopCalls, ∀ p ∈ call, p ∈ Producer.all := by
    simp [shopCalls, Producer.all, Platform.producers]
  exact ⟨hcalls, by decide +kernel, reads_covered.1 shop ⟨.empty⟩ shopCalls hcalls,
    reads_covered.2 shop []⟩

end Schema
end InfraGraph
