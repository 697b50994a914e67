import InfraGraph.Proofs.Generation.Calls

/-!
# States that runs can reach

Runs of the producers, any of them and in any order, lead from the empty state to others, also where
they fail.  In all of these an output is what a producer has generated for one of its entities: runs
register nothing else, and a name stands for one producer.  Main statements:

* `Context.Reachable`, `Context.afterRuns` — what runs of the producers lead to;
* `Context.Reachable.preserves` — what every item preserves holds of all of these states;
* `Context.Reachable.supported` — what outputs were generated from is there;
* `Registration.IsGenerated`, `Context.Reachable.exists_generated` — where an output comes from.
-/

namespace InfraGraph

/-- A producer has generated the output for one of its entities, in a state of the schema. -/
def Registration.IsGenerated (s : Schema) (r : Registration) : Prop :=
  ∃ p ∈ Producer.all, ∃ e ∈ p.entities s, ∃ before g, before.schema = s ∧
    p.generate before e = .ok g ∧ r = ⟨p.name, e.id, g.output⟩

namespace Context

/-- States that runs of the producers lead to, those that fail included. -/
inductive Reachable (s : Schema) : Context → Prop where
  | initial (grants : Grants) : Reachable s (.initial s grants)
  | run {ctx : Context} {producers : List Producer} :
      Reachable s ctx → (∀ p ∈ producers, p ∈ Producer.all) →
        Reachable s (Schedule.run producers ctx).1

/-- State after runs, each beginning where the one before has ended. -/
def afterRuns (ctx : Context) (calls : List (List Producer)) : Context :=
  calls.foldl (fun state producers => (Schedule.run producers state).1) ctx

namespace Reachable

variable {s : Schema} {ctx : Context}

/-- Runs can be put together. -/
theorem afterRuns {calls : List (List Producer)} (h : Reachable s ctx)
    (hcalls : ∀ call ∈ calls, ∀ p ∈ call, p ∈ Producer.all) :
    Reachable s (ctx.afterRuns calls) := by
  induction calls generalizing ctx with
  | nil => exact h
  | cons producers rest ih =>
      obtain ⟨hproducers, hrest⟩ := List.forall_mem_cons.mp hcalls
      exact ih (h.run hproducers) hrest

/-- What items of the producers preserve, be they refused or not, holds of every state. -/
theorem preserves {P : Context → Prop} (h : Reachable s ctx)
    (hinitial : ∀ grants, P (.initial s grants))
    (hstep : ∀ item : WorkItem, item.producer ∈ Producer.all →
      item.entity ∈ item.producer.entities s → ∀ state reached outcome, state.schema = s →
        P state → item.complete state = (reached, outcome) → P reached) :
    ctx.schema = s ∧ P ctx := by
  induction h with
  | initial grants => exact ⟨rfl, hinitial grants⟩
  | run _ hproducers ih =>
      refine Schedule.run_preserves (P := fun state => state.schema = s ∧ P state) ?_ ih rfl
      rintro item hitem state reached outcome ⟨hschema, hstate⟩ hcomplete
      -- the items of the run are those of the schema, which no item before has changed
      rw [ih.1] at hitem
      obtain ⟨hproducer, hentity⟩ := Schedule.mem_items_iff.mp hitem
      constructor
      · rw [(WorkItem.complete_state hcomplete).1, hschema]
      · exact hstep item (hproducers _ hproducer) hentity state reached outcome hschema hstate
          hcomplete

/-- In states that runs lead to, paths and deployments are only there with the REST API. -/
theorem supported (h : Reachable s ctx) : ctx.Supported s := by
  refine (h.preserves (P := fun state => state.Supported s) (Supported.initial s) ?_).2
  intro item hproducer _ state reached outcome _ hstate hcomplete
  exact hstate.complete hproducer hcomplete

/-- Nothing is registered but what producers have generated. -/
theorem isGenerated (h : Reachable s ctx) : ∀ r ∈ ctx.outputs, r.IsGenerated s := by
  refine (h.preserves (P := fun state => ∀ r ∈ state.outputs, r.IsGenerated s) ?_ ?_).2
  · intro grants r hr
    cases hr
  · intro item hproducer hentity state reached outcome hschema hstate hcomplete
    refine WorkItem.forall_outputs_of_complete hcomplete hstate ?_
    exact fun g hg => ⟨item.producer, hproducer, item.entity, hentity, state, g, hschema, hg, rfl⟩

/-- An output under the name of a producer was generated by it for one of its entities. -/
theorem exists_generated (h : Reachable s ctx) {p : Producer} (hp : p ∈ Producer.all)
    {id : EntityId} {output : Output} (hl : ctx.lookup? p.name id = some output) :
    ∃ e ∈ p.entities s, ∃ before g, before.schema = s ∧ p.generate before e = .ok g ∧
      e.id = id ∧ g.output = output := by
  obtain ⟨q, hq, e, he, before, g, hschema, hg, hr⟩ :=
    h.isGenerated _ (mem_outputs_of_lookup hl)
  obtain ⟨hname, rfl, rfl⟩ := Registration.mk.inj hr
  -- the name under which the output stands is that of one producer only
  cases Producer.eq_of_name_eq hp hq hname
  exact ⟨e, he, before, g, hschema, hg, rfl, rfl⟩

end Reachable
end Context
end InfraGraph
