import InfraGraph.Generation.Context

/-!
# Schedule — sweeping until nothing is pending

A work item is an entity together with the producer that generates for it.  A sweep offers every
pending item to its producer; a ready item is completed at once, so later items of the same sweep
already see its output.  Sweeps go on while each completes something.  One that completes nothing
while items are pending is a stall: a cycle, or a prerequisite that will never be there.

* `Producer`, `WorkItem` — who generates, and for what;
* `WorkItem.complete` — generate, register and append for one item;
* `Schedule.sweep` — one sweep, with the items it leaves pending;
* `Schedule.run` — sweeps until nothing is pending;
* `Schedule.length_outputs_run` — its report counts the items that it has completed.

The state reached is part of every result, since work done before an error stays done.
-/

namespace InfraGraph

/-! ## Producers -/

structure Generated where
  output : Output
  resources : List Resource

/-- Generates an output and resources for entities of a schema. -/
structure Producer where
  name : String
  /-- Entities of a schema that are generated for. -/
  entities : Schema → List Entity
  /-- Whether everything that is read for an entity is there. -/
  mayRun : Context → Entity → Bool
  generate : Context → Entity → Except GenerationError Generated

/-- An entity, with the producer that generates for it. -/
structure WorkItem where
  producer : Producer
  entity : Entity

/-- State reached, with an error or a value. -/
abbrev Outcome (α : Type) := Context × Except GenerationError α

namespace WorkItem

def ready (item : WorkItem) (ctx : Context) : Bool := item.producer.mayRun ctx item.entity

/-- The item as it is reported when it is stuck. -/
def stuck (item : WorkItem) : StuckItem := ⟨item.producer.name, item.entity.id⟩

/-- Generate for the item and commit what was generated: first the output, then the resources. -/
def complete (item : WorkItem) (ctx : Context) : Outcome Unit :=
  match item.producer.generate ctx item.entity with
  | .error e => (ctx, .error e)
  | .ok generated =>
      match ctx.register item.producer.name item.entity.id generated.output with
      | .error e => (ctx, .error e)
      | .ok ctx => ctx.append item.producer.name item.entity.id generated.resources

end WorkItem

/-! ## Sweeps -/

structure SweepReport where
  sweeps : Nat
  /-- Number of completed items. -/
  completed : Nat
deriving DecidableEq

namespace Schedule

/-- Work items of the producers, in order of the producers and of their entities. -/
def items (producers : List Producer) (s : Schema) : List WorkItem :=
  producers.flatMap fun p => (p.entities s).map fun e => ⟨p, e⟩

/-- Offer each item once; the value is the list of items that were not ready. -/
def sweep (ctx : Context) : List WorkItem → Outcome (List WorkItem)
  | [] => (ctx, .ok [])
  | item :: rest =>
      if item.ready ctx then
        match item.complete ctx with
        | (ctx, .error e) => (ctx, .error e)
        | (ctx, .ok ()) => sweep ctx rest
      else
        match sweep ctx rest with
        | (ctx, .error e) => (ctx, .error e)
        | (ctx, .ok pending) => (ctx, .ok (item :: pending))

/-- Sweep while items are pending and each sweep completes one; the value is the number of
sweeps. -/
def drain (ctx : Context) (pending : List WorkItem) (sweeps : Nat) : Outcome Nat :=
  if pending.isEmpty then (ctx, .ok sweeps)
  else
    match sweep ctx pending with
    | (ctx, .error e) => (ctx, .error e)
    | (ctx, .ok left) =>
        if left.length < pending.length then drain ctx left (sweeps + 1)
        else (ctx, .error (.stalled (left.map WorkItem.stuck)))
termination_by pending.length

def run (producers : List Producer) (ctx : Context) : Outcome SweepReport :=
  let work := items producers ctx.schema
  match drain ctx work 0 with
  | (ctx, .error e) => (ctx, .error e)
  | (ctx, .ok sweeps) => (ctx, .ok ⟨sweeps, work.length⟩)

end Schedule

/-! ## Counting -/

variable {ctx next : Context}

/-- An item that is completed has registered one output. -/
theorem WorkItem.length_outputs_complete {item : WorkItem}
    (h : item.complete ctx = (next, .ok ())) : next.outputs.length = ctx.outputs.length + 1 := by
  unfold complete at h
  cases hg : item.producer.generate ctx item.entity with
  | error e => simp [hg] at h
  | ok g =>
      unfold Context.register at h
      by_cases hthere : ctx.has item.producer.name item.entity.id
      · simp [hg, hthere] at h
      · simp only [hg, hthere, Bool.false_eq_true, if_false] at h
        have houtputs := congrArg (fun outcome => outcome.1.outputs) h
        simp only [Context.outputs_append] at houtputs
        simp [← houtputs]

namespace Schedule

variable {pending left : List WorkItem}

/-- A sweep has completed the items that it does not leave. -/
theorem length_outputs_sweep (h : sweep ctx pending = (next, .ok left)) :
    next.outputs.length + left.length = ctx.outputs.length + pending.length := by
  induction pending generalizing ctx left with
  | nil =>
      obtain ⟨rfl, hleft⟩ := Prod.mk.inj h
      cases hleft
      rfl
  | cons item rest ih =>
      simp only [sweep] at h
      cases hready : item.ready ctx with
      | true =>
          rw [hready, if_pos rfl] at h
          match hcomplete : item.complete ctx with
          | (mid, .error e) => simp [hcomplete] at h
          | (mid, .ok ()) =>
              rw [hcomplete] at h
              have hone := WorkItem.length_outputs_complete hcomplete
              have hrest := ih h
              simp only [List.length_cons]
              omega
      | false =>
          rw [hready, if_neg Bool.false_ne_true] at h
          match hsweep : sweep ctx rest with
          | (mid, .error e) => simp [hsweep] at h
          | (mid, .ok kept) =>
              rw [hsweep] at h
              obtain ⟨rfl, hleft⟩ := Prod.mk.inj h
              cases hleft
              have hrest := ih hsweep
              simp only [List.length_cons]
              omega

/-- Draining has completed all that was pending. -/
theorem length_outputs_drain {sweeps total : Nat}
    (h : drain ctx pending sweeps = (next, .ok total)) :
    next.outputs.length = ctx.outputs.length + pending.length := by
  fun_induction drain ctx pending sweeps with
  | case1 ctx pending sweeps hnone =>
      obtain ⟨rfl, _⟩ := Prod.mk.inj h
      rw [List.isEmpty_iff.mp hnone]
      rfl
  | case2 ctx pending sweeps _ mid e hsweep => simp at h
  | case3 ctx pending sweeps _ mid left hsweep _ ih =>
      have hfirst := length_outputs_sweep hsweep
      have hrest := ih h
      omega
  | case4 ctx pending sweeps _ mid left hsweep _ => simp at h

/-- The report of a run counts the items that were completed: each has registered one output. -/
theorem length_outputs_run {producers : List Producer} {report : SweepReport}
    (h : run producers ctx = (next, .ok report)) :
    next.outputs.length = ctx.outputs.length + report.completed := by
  unfold run at h
  match hdrain : drain ctx (items producers ctx.schema) 0 with
  | (mid, .error e) => simp [hdrain] at h
  | (mid, .ok sweeps) =>
      simp only [hdrain, Prod.mk.injEq, Except.ok.injEq] at h
      obtain ⟨rfl, rfl⟩ := h
      exact length_outputs_drain hdrain

end Schedule
end InfraGraph
