import InfraGraph.Proofs.Generation.Chain

/-!
# Runs that record their calls

A run says how many sweeps it took and what it left, not which item was generated for in which
sweep.  Here it also records each call of a generator, sweep by sweep, with the place that the item
has among the work items.  Main statements:

* `Call`, `logged` — what a generator was called for, and what came of it;
* `Schedule.tracedSweep`, `Schedule.tracedDrain`, `Schedule.trace` — sweeps that record the calls;
* `Schedule.sweep_of_traced`, `Schedule.drain_of_traced`, `Schedule.run_of_trace` — without the
  record these are the sweeps of the schedule;
* `Schedule.tracedSweep_cons`, `Schedule.tracedDrain_cases` — what one item and one sweep can do;
* `Schedule.tracedDrain_ok`, `Schedule.tracedDrain_error` — what sweeps have called for and
  completed;
* `Schedule.run_ok`, `Schedule.run_error` — a run is a chain that completes everything, or one that
  ends at an item that fails, or where no item is ready;
* `Schedule.run_preserves` — what every item preserves, a run does.
-/

namespace InfraGraph

/-! ## Calls -/

/-- A call of a generator, for the item at a place. -/
structure Call where
  item : WorkItem
  place : Nat
  result : Except GenerationError Generated

namespace Call

def placed (call : Call) : WorkItem × Nat := (call.item, call.place)

end Call

def WorkItem.call (item : WorkItem) (place : Nat) (ctx : Context) : Call :=
  ⟨item, place, item.producer.generate ctx item.entity⟩

namespace Completion

def call (c : Completion) (place : Nat) : Call := ⟨c.item, place, .ok c.generated⟩

/-- The call of a completion that fits has its result. -/
theorem Fits.call_eq {c : Completion} {ctx : Context} (h : c.Fits ctx) (place : Nat) :
    c.item.call place ctx = c.call place := by
  rw [WorkItem.call, h.generate]
  rfl

end Completion

/-- Calls of completed items, in the order of their completion. -/
def logged (done : List (Completion × Nat)) : List Call := done.map fun d => d.1.call d.2

/-- Calls are recorded in order. -/
theorem logged_append (done more : List (Completion × Nat)) :
    logged (done ++ more) = logged done ++ logged more := List.map_append

namespace Schedule

/-! ## Sweeps with their calls -/

/-- Offer each item once, and record the calls. -/
def tracedSweep (ctx : Context) :
    List (WorkItem × Nat) → List Call × Outcome (List (WorkItem × Nat))
  | [] => ([], ctx, .ok [])
  | (item, place) :: rest =>
      if item.ready ctx then
        match item.complete ctx with
        | (next, .error e) => ([item.call place ctx], next, .error e)
        | (next, .ok ()) =>
            match tracedSweep next rest with
            | (calls, outcome) => (item.call place ctx :: calls, outcome)
      else
        match tracedSweep ctx rest with
        | (calls, next, left) => (calls, next, left.map (List.cons (item, place)))

/-- Sweep while items are pending and each sweep completes one, and record the calls of each
sweep. -/
def tracedDrain (ctx : Context) (pending : List (WorkItem × Nat)) :
    List (List Call) × Outcome Unit :=
  if pending.isEmpty then ([], ctx, .ok ())
  else
    match tracedSweep ctx pending with
    | (calls, next, .error e) => ([calls], next, .error e)
    | (calls, next, .ok left) =>
        if left.length < pending.length then
          match tracedDrain next left with
          | (later, outcome) => (calls :: later, outcome)
        else ([calls], next, .error (.stalled (left.map fun x => x.1.stuck)))
termination_by pending.length

/-- Calls of a run, sweep by sweep, with the state that it reaches. -/
def trace (producers : List Producer) (ctx : Context) : List (List Call) × Outcome Unit :=
  tracedDrain ctx (items producers ctx.schema).zipIdx

variable {producers : List Producer} {ctx next : Context}

/-! ## What one item and one sweep can do -/

/-- A sweep completes its first item and goes on, or the item fails, or it is left for later. -/
theorem tracedSweep_cons {item : WorkItem} {place : Nat} {rest : List (WorkItem × Nat)}
    {calls : List Call} {result : Except GenerationError (List (WorkItem × Nat))}
    (h : tracedSweep ctx ((item, place) :: rest) = (calls, next, result)) :
    (∃ c later, c.item = item ∧ Completion.Fits c ctx ∧ calls = c.call place :: later ∧
        tracedSweep (c.commit ctx) rest = (later, next, result)) ∨
      (∃ e, item.ready ctx = true ∧ item.complete ctx = (next, .error e) ∧
        calls = [item.call place ctx] ∧ result = .error e) ∨
      (item.ready ctx = false ∧ ∃ left, tracedSweep ctx rest = (calls, next, left) ∧
        result = left.map (List.cons (item, place))) := by
  simp only [tracedSweep] at h
  cases hready : item.ready ctx with
  | true =>
      rw [if_pos hready] at h
      obtain ⟨mid, outcome, hcomplete⟩ : ∃ mid outcome, item.complete ctx = (mid, outcome) :=
        ⟨_, _, rfl⟩
      rw [hcomplete] at h
      cases outcome with
      | error e =>
          cases h
          exact Or.inr (Or.inl ⟨e, rfl, hcomplete, rfl, rfl⟩)
      | ok u =>
          obtain ⟨g, hg, hhas, hnodup, hfresh, rfl⟩ := WorkItem.complete_eq_ok_iff.mp hcomplete
          have hfits : Completion.Fits ⟨item, g⟩ ctx := ⟨hready, hg, hhas, hnodup, hfresh⟩
          obtain ⟨later, outcome, hlater⟩ : ∃ later outcome,
              tracedSweep (Completion.commit ⟨item, g⟩ ctx) rest = (later, outcome) := ⟨_, _, rfl⟩
          simp only [Completion.commit] at hlater
          simp only [hlater] at h
          cases h
          rw [hfits.call_eq place]
          exact Or.inl ⟨⟨item, g⟩, later, rfl, hfits, rfl, hlater⟩
  | false =>
      rw [if_neg (by simp [hready])] at h
      obtain ⟨later, mid, left, hlater⟩ : ∃ later mid left,
          tracedSweep ctx rest = (later, mid, left) := ⟨_, _, _, rfl⟩
      rw [hlater] at h
      cases h
      exact Or.inr (Or.inr ⟨rfl, left, hlater, rfl⟩)

/-- Draining ends if nothing is pending; otherwise a sweep fails, or leaves fewer items, which are
drained, or is stuck. -/
theorem tracedDrain_cases {pending : List (WorkItem × Nat)} {calls : List (List Call)}
    {result : Except GenerationError Unit} (h : tracedDrain ctx pending = (calls, next, result)) :
    (pending = [] ∧ calls = [] ∧ next = ctx ∧ result = .ok ()) ∨
      (∃ first e, tracedSweep ctx pending = (first, next, .error e) ∧ calls = [first] ∧
        result = .error e) ∨
      (∃ first later mid left, tracedSweep ctx pending = (first, mid, .ok left) ∧
        left.length < pending.length ∧ calls = first :: later ∧
        tracedDrain mid left = (later, next, result)) ∨
      (∃ first left, pending ≠ [] ∧ tracedSweep ctx pending = (first, next, .ok left) ∧
        ¬left.length < pending.length ∧ calls = [first] ∧
        result = .error (.stalled (left.map fun x => x.1.stuck))) := by
  unfold tracedDrain at h
  by_cases hempty : pending.isEmpty = true
  · rw [if_pos hempty] at h
    cases h
    exact Or.inl ⟨List.isEmpty_iff.mp hempty, rfl, rfl, rfl⟩
  · rw [if_neg hempty] at h
    have hne : pending ≠ [] := fun hnil => hempty (by rw [hnil]; rfl)
    obtain ⟨first, mid, outcome, hsweep⟩ : ∃ first mid outcome,
        tracedSweep ctx pending = (first, mid, outcome) := ⟨_, _, _, rfl⟩
    rw [hsweep] at h
    cases outcome with
    | error e =>
        cases h
        exact Or.inr (Or.inl ⟨first, e, hsweep, rfl, rfl⟩)
    | ok left =>
        simp only at h
        by_cases hless : left.length < pending.length
        · rw [if_pos hless] at h
          obtain ⟨later, outcome, hlater⟩ : ∃ later outcome,
              tracedDrain mid left = (later, outcome) := ⟨_, _, rfl⟩
          rw [hlater] at h
          cases h
          exact Or.inr (Or.inr (Or.inl ⟨first, later, mid, left, hsweep, hless, rfl, hlater⟩))
        · rw [if_neg hless] at h
          cases h
          exact Or.inr (Or.inr (Or.inr ⟨first, left, hne, hsweep, hless, rfl, rfl⟩))

/-! ## Without the record -/

/-- A sweep without the record of its calls is a sweep. -/
theorem sweep_of_traced {work : List (WorkItem × Nat)} {calls : List Call}
    {result : Except GenerationError (List (WorkItem × Nat))}
    (h : tracedSweep ctx work = (calls, next, result)) :
    sweep ctx (work.map Prod.fst) = (next, result.map (List.map Prod.fst)) := by
  induction work generalizing ctx calls result with
  | nil =>
      cases h
      rfl
  | cons x rest ih =>
      obtain ⟨item, place⟩ := x
      simp only [List.map_cons, sweep]
      rcases tracedSweep_cons h with ⟨c, later, rfl, hfits, _, hlater⟩ |
        ⟨e, hready, hcomplete, _, rfl⟩ | ⟨hready, left, hlater, rfl⟩
      · -- what fits is what completing the item does
        rw [if_pos hfits.ready, hfits.complete_eq]
        exact ih hlater
      · rw [if_pos hready, hcomplete]
        rfl
      · rw [if_neg (by simp [hready]), ih hlater]
        cases left <;> rfl

/-- Sweeps that record their calls do what sweeps do. -/
theorem drain_of_traced {pending : List (WorkItem × Nat)} {calls : List (List Call)}
    {result : Except GenerationError Unit} (h : tracedDrain ctx pending = (calls, next, result))
    (sweeps : Nat) :
    drain ctx (pending.map Prod.fst) sweeps =
      (next, result.map fun _ => sweeps + calls.length) := by
  -- with each sweep less is pending, and one more is counted
  induction hn : pending.length using Nat.strongRecOn generalizing pending calls sweeps ctx with
  | _ n ih =>
      subst hn
      rcases tracedDrain_cases h with ⟨rfl, rfl, rfl, rfl⟩ | ⟨first, e, hsweep, _, rfl⟩ |
        ⟨first, later, mid, left, hsweep, hless, rfl, hlater⟩ |
        ⟨first, left, hne, hsweep, hstuck, _, rfl⟩
      · unfold drain
        rfl
      · have hne : pending ≠ [] := by
          rintro rfl
          cases hsweep
        unfold drain
        rw [if_neg (by simp [hne]), sweep_of_traced hsweep]
        rfl
      · have hne : pending ≠ [] := List.length_pos_iff.mp (Nat.zero_lt_of_lt hless)
        have hrest := ih left.length hless hlater (sweeps + 1) rfl
        unfold drain
        rw [if_neg (by simp [hne]), sweep_of_traced hsweep]
        simp only [Except.map, List.length_map]
        rw [if_pos hless, hrest, List.length_cons, Nat.add_assoc, Nat.add_comm 1]
        rfl
      · unfold drain
        rw [if_neg (by simp [hne]), sweep_of_traced hsweep]
        simp only [Except.map, List.length_map, List.map_map]
        rw [if_neg hstuck]
        rfl

/-- A run without the record of its calls is a run, and its sweeps are those of the record. -/
theorem run_of_trace {calls : List (List Call)} {result : Except GenerationError Unit}
    (h : trace producers ctx = (calls, next, result)) :
    run producers ctx =
      (next, result.map fun _ => ⟨calls.length, (items producers ctx.schema).length⟩) := by
  have hdrain := drain_of_traced h 0
  rw [List.zipIdx_map_fst] at hdrain
  rw [run_eq hdrain, Nat.zero_add]
  cases result <;> rfl

/-! ## What sweeps have completed -/

/-- A sweep without error has called for the items that it does not leave, and completed them; one
that calls for nothing found no item ready. -/
theorem tracedSweep_ok {work left : List (WorkItem × Nat)} {calls : List Call}
    (h : tracedSweep ctx work = (calls, next, .ok left)) :
    ∃ done, calls = logged done ∧ Chain ctx (done.map Prod.fst) next ∧
      work.Perm (calls.map Call.placed ++ left) ∧
      (calls = [] → ∀ x ∈ work, x.1.ready ctx = false) := by
  -- a completion changes the state that the rest of the sweep begins in, so the state varies
  induction work generalizing ctx calls left with
  | nil =>
      cases h
      exact ⟨[], rfl, .nil, .nil, by simp⟩
  | cons x rest ih =>
      obtain ⟨item, place⟩ := x
      rcases tracedSweep_cons h with ⟨c, later, rfl, hfits, rfl, hlater⟩ | ⟨_, _, _, _, he⟩ |
        ⟨hnot, left', hlater, he⟩
      · obtain ⟨done, rfl, hdone, hperm, _⟩ := ih hlater
        exact ⟨(c, place) :: done, rfl, .cons hfits hdone, hperm.cons (c.item, place), by simp⟩
      · cases he
      · cases left' with
        | error e => cases he
        | ok pending =>
            cases he
            obtain ⟨done, rfl, hdone, hperm, hnone⟩ := ih hlater
            refine ⟨done, rfl, hdone, (hperm.cons (item, place)).trans List.perm_middle.symm, ?_⟩
            intro hempty
            exact List.forall_mem_cons.mpr ⟨hnot, hnone hempty⟩

/-- A sweep with an error has completed the items that it called for before the last one. -/
theorem tracedSweep_error {work : List (WorkItem × Nat)} {calls : List Call} {e : GenerationError}
    (h : tracedSweep ctx work = (calls, next, .error e)) :
    ∃ done mid item place rest, calls = logged done ++ [WorkItem.call item place mid] ∧
      Chain ctx (done.map Prod.fst) mid ∧ work.Perm (calls.map Call.placed ++ rest) ∧
      item.ready mid = true ∧ item.complete mid = (next, .error e) := by
  induction work generalizing ctx calls with
  | nil => cases h
  | cons x rest ih =>
      obtain ⟨first, position⟩ := x
      rcases tracedSweep_cons h with ⟨c, later, rfl, hfits, rfl, hlater⟩ |
        ⟨_, hready, hcomplete, rfl, he⟩ | ⟨_, left, hlater, he⟩
      · obtain ⟨done, mid, item, place, others, rfl, hdone, hperm, hfail⟩ := ih hlater
        exact ⟨(c, position) :: done, mid, item, place, others, rfl, .cons hfits hdone,
          hperm.cons (c.item, position), hfail⟩
      · cases he
        exact ⟨[], ctx, first, position, rest, rfl, .nil, .refl _, hready, hcomplete⟩
      · cases left with
        | ok pending => cases he
        | error e' =>
            cases he
            obtain ⟨done, mid, item, place, others, rfl, hdone, hperm, hfail⟩ := ih hlater
            exact ⟨done, mid, item, place, (first, position) :: others, rfl, hdone,
              (hperm.cons (first, position)).trans List.perm_middle.symm, hfail⟩

/-- A sweep that leaves all that it was offered has called for nothing. -/
theorem tracedSweep_stuck {work left : List (WorkItem × Nat)} {calls : List Call}
    (h : tracedSweep ctx work = (calls, next, .ok left)) (hstuck : ¬left.length < work.length) :
    calls = [] ∧ next = ctx ∧ work.Perm left ∧ ∀ x ∈ work, x.1.ready ctx = false := by
  obtain ⟨done, rfl, hdone, hperm, hnone⟩ := tracedSweep_ok h
  have hlength := hperm.length_eq
  rw [List.length_append, List.length_map, logged, List.length_map] at hlength
  obtain rfl : done = [] := List.length_eq_zero_iff.mp (by omega)
  cases hdone
  exact ⟨rfl, rfl, hperm, hnone rfl⟩

/-- Draining without error has called for each pending item, and completed it. -/
theorem tracedDrain_ok {pending : List (WorkItem × Nat)} {calls : List (List Call)}
    (h : tracedDrain ctx pending = (calls, next, .ok ())) :
    calls.length ≤ pending.length ∧ (calls = [] ↔ pending = []) ∧
      ∃ done, calls.flatten = logged done ∧ Chain ctx (done.map Prod.fst) next ∧
        pending.Perm (calls.flatten.map Call.placed) := by
  -- what a sweep leaves is no tail of what was pending, only shorter
  induction hn : pending.length using Nat.strongRecOn generalizing pending calls ctx with
  | _ n ih =>
      subst hn
      rcases tracedDrain_cases h with ⟨rfl, rfl, rfl, _⟩ | ⟨_, _, _, _, he⟩ |
        ⟨first, later, mid, left, hsweep, hless, rfl, hlater⟩ | ⟨_, _, _, _, _, _, he⟩
      · exact ⟨Nat.le_refl 0, by simp, [], rfl, .nil, .nil⟩
      · cases he
      · -- what this sweep has completed, and then what the sweeps over the rest complete
        obtain ⟨done, rfl, hdone, hperm, _⟩ := tracedSweep_ok hsweep
        obtain ⟨hlength, _, more, hcalls, hmore, hperm'⟩ := ih left.length hless hlater rfl
        have hne : pending ≠ [] := List.length_pos_iff.mp (Nat.zero_lt_of_lt hless)
        refine ⟨Nat.lt_of_le_of_lt hlength hless, by simp [hne], done ++ more, ?_, ?_, ?_⟩
        · rw [List.flatten_cons, hcalls, logged_append]
        · rw [List.map_append]
          exact hdone.append hmore
        · rw [List.flatten_cons, List.map_append]
          exact hperm.trans (hperm'.append_left _)
      · cases he

/-- Draining with an error has completed the items that it called for, but for a last one that
failed, or it is stuck: none of the items left is ready. -/
theorem tracedDrain_error {pending : List (WorkItem × Nat)} {calls : List (List Call)}
    {e : GenerationError} (h : tracedDrain ctx pending = (calls, next, .error e)) :
    calls.length ≤ pending.length ∧
      ∃ done mid rest, Chain ctx (done.map Prod.fst) mid ∧
        pending.Perm (calls.flatten.map Call.placed ++ rest) ∧
        ((∃ item place, calls.flatten = logged done ++ [WorkItem.call item place mid] ∧
            item.ready mid = true ∧ item.complete mid = (next, .error e)) ∨
          (calls.flatten = logged done ∧ mid = next ∧ rest ≠ [] ∧
            (rest.map Prod.fst).Sublist (pending.map Prod.fst) ∧
            (∀ x ∈ rest, x.1.ready mid = false) ∧ e = .stalled (rest.map fun x => x.1.stuck))) := by
  induction hn : pending.length using Nat.strongRecOn generalizing pending calls ctx with
  | _ n ih =>
      subst hn
      rcases tracedDrain_cases h with ⟨_, _, _, he⟩ | ⟨first, _, hsweep, rfl, he⟩ |
        ⟨first, later, mid, left, hsweep, hless, rfl, hlater⟩ |
        ⟨first, left, hne, hsweep, hstuck, rfl, he⟩
      · cases he
      · -- a sweep that fails has called for an item, so something was pending
        cases he
        have hne : pending ≠ [] := by
          rintro rfl
          cases hsweep
        obtain ⟨done, mid, item, place, rest, rfl, hdone, hperm, hfail⟩ := tracedSweep_error hsweep
        refine ⟨List.length_pos_iff.mpr hne, done, mid, rest, hdone, ?_,
          Or.inl ⟨item, place, ?_, hfail⟩⟩
        · rwa [List.flatten_singleton]
        · rw [List.flatten_singleton]
      · have hsub := sweep_sublist (sweep_of_traced hsweep)
        obtain ⟨done, rfl, hdone, hperm, _⟩ := tracedSweep_ok hsweep
        obtain ⟨hlength, more, mid', rest, hmore, hperm', hend⟩ := ih left.length hless hlater rfl
        refine ⟨Nat.lt_of_le_of_lt hlength hless, done ++ more, mid', rest, ?_, ?_, ?_⟩
        · rw [List.map_append]
          exact hdone.append hmore
        · rw [List.flatten_cons, List.map_append, List.append_assoc]
          exact hperm.trans (hperm'.append_left _)
        · rw [List.flatten_cons]
          rcases hend with ⟨item, place, hcalls, hfail⟩ | ⟨hcalls, hsame, hne, hsub', hstuck⟩
          · refine Or.inl ⟨item, place, ?_, hfail⟩
            rw [hcalls, logged_append, List.append_assoc]
          · -- what later sweeps leave stands in the order that this one left
            refine Or.inr ⟨?_, hsame, hne, hsub'.trans hsub, hstuck⟩
            rw [hcalls, logged_append]
      · cases he
        have hsub := sweep_sublist (sweep_of_traced hsweep)
        obtain ⟨rfl, rfl, hperm, hnone⟩ := tracedSweep_stuck hsweep hstuck
        refine ⟨List.length_pos_iff.mpr hne, [], next, left, .nil, hperm, Or.inr ⟨rfl, rfl, ?_⟩⟩
        refine ⟨?_, hsub, fun x hx => hnone x (hperm.mem_iff.mpr hx), rfl⟩
        rintro rfl
        exact hne hperm.eq_nil

/-! ## Whole runs -/

/-- Items of the calls for completed items. -/
theorem map_placed_logged (done : List (Completion × Nat)) :
    ((logged done).map Call.placed).map Prod.fst = (done.map Prod.fst).map Completion.item := by
  simp only [logged, List.map_map]
  rfl

/-- A run without error completes every item. -/
theorem run_ok {report : SweepReport} (hr : run producers ctx = (next, .ok report)) :
    report.completed = (items producers ctx.schema).length ∧
      ∃ done, Chain ctx done next ∧
        (items producers ctx.schema).Perm (done.map Completion.item) := by
  obtain ⟨calls, mid, outcome, h⟩ : ∃ calls mid outcome,
      trace producers ctx = (calls, mid, outcome) := ⟨_, _, _, rfl⟩
  rw [run_of_trace h] at hr
  obtain ⟨rfl, hresult⟩ := Prod.mk.inj hr
  cases outcome with
  | error e => cases hresult
  | ok u =>
      cases hresult
      obtain ⟨_, _, done, hcalls, hdone, hperm⟩ := tracedDrain_ok h
      have hitems := hperm.map Prod.fst
      rw [List.zipIdx_map_fst, hcalls, map_placed_logged] at hitems
      exact ⟨rfl, done.map Prod.fst, hdone, hitems⟩

/-- A run with an error ends at an item that fails, or where none of the items left is ready. -/
theorem run_error {e : GenerationError} (hr : run producers ctx = (next, .error e)) :
    ∃ done mid left, Chain ctx done mid ∧
      (items producers ctx.schema).Perm (done.map Completion.item ++ left) ∧
      ((∃ item ∈ left, item.ready mid = true ∧ item.complete mid = (next, .error e)) ∨
        (mid = next ∧ left ≠ [] ∧ left.Sublist (items producers ctx.schema) ∧
          (∀ i ∈ left, i.ready mid = false) ∧ e = .stalled (left.map WorkItem.stuck))) := by
  obtain ⟨calls, reached, outcome, h⟩ : ∃ calls reached outcome,
      trace producers ctx = (calls, reached, outcome) := ⟨_, _, _, rfl⟩
  rw [run_of_trace h] at hr
  obtain ⟨rfl, hresult⟩ := Prod.mk.inj hr
  cases outcome with
  | ok u => cases hresult
  | error e' =>
      cases hresult
      obtain ⟨_, done, mid, rest, hdone, hperm, hend⟩ := tracedDrain_error h
      have hitems := hperm.map Prod.fst
      rw [List.zipIdx_map_fst, List.map_append] at hitems
      rcases hend with ⟨item, place, hcalls, hready, hfail⟩ |
        ⟨hcalls, hsame, hne, hsub, hstuck, rfl⟩
      · -- the item that fails is called for last, and stands before what no sweep has called for
        rw [hcalls, List.map_append, List.map_append, map_placed_logged,
          List.append_assoc] at hitems
        exact ⟨_, mid, item :: rest.map Prod.fst, hdone, hitems,
          Or.inl ⟨item, List.mem_cons_self, hready, hfail⟩⟩
      · rw [hcalls, map_placed_logged] at hitems
        rw [List.zipIdx_map_fst] at hsub
        refine ⟨_, mid, rest.map Prod.fst, hdone, hitems, Or.inr ⟨hsame, ?_, hsub, ?_, ?_⟩⟩
        · rwa [ne_eq, List.map_eq_nil_iff]
        · exact List.forall_mem_map.mpr hstuck
        · rw [List.map_map]
          rfl

/-- What completing an item preserves, be the item refused or not, holds of the state that a run
leaves. -/
theorem run_preserves {P : Context → Prop} {result : Except GenerationError SweepReport}
    (hstep : ∀ item ∈ items producers ctx.schema, ∀ state reached outcome, P state →
      item.complete state = (reached, outcome) → P reached)
    (hctx : P ctx) (hr : run producers ctx = (next, result)) : P next := by
  have hchain : ∀ {done mid}, Chain ctx done mid →
      (∀ c ∈ done, c.item ∈ items producers ctx.schema) → P mid := by
    intro done mid hdone hitems
    refine hdone.preserves ?_ hctx
    intro c hc state hstate hfits
    exact hstep c.item (hitems c hc) state _ _ hstate hfits.complete_eq
  cases result with
  | ok report =>
      obtain ⟨_, done, hdone, hperm⟩ := run_ok hr
      exact hchain hdone fun c hc => hperm.mem_iff.mpr (List.mem_map_of_mem hc)
  | error e =>
      obtain ⟨done, mid, left, hdone, hperm, hfail⟩ := run_error hr
      have hmid : P mid := hchain hdone fun c hc =>
        hperm.mem_iff.mpr (List.mem_append_left _ (List.mem_map_of_mem hc))
      rcases hfail with ⟨item, hleft, _, hcomplete⟩ | ⟨rfl, _⟩
      · -- the item that fails may have left its output
        have hitem := hperm.mem_iff.mpr (List.mem_append_right _ hleft)
        exact hstep item hitem mid next _ hmid hcomplete
      · exact hmid

end Schedule
end InfraGraph
