import Mathlib.Data.List.Nodup
import InfraGraph.Proofs.Generation.Trace

/-!
# Runs at a known pace

Suppose it is known of every item in which sweep it becomes ready, given that the items before it
keep to their sweeps.  Then a run that succeeds keeps to all of them: the induction goes over the
sweeps, and within a sweep over the places.  Main statements:

* `Schedule.KeptTo` — what is registered when a sweep has come to a place;
* `Schedule.Paced` — an item becomes ready in its sweep, if the items so far have kept to theirs;
* `Schedule.tracedSweep_paced`, `Schedule.tracedDrain_paced` — one sweep, and all sweeps;
* `Schedule.trace_paced` — what a run calls in each sweep, and how many sweeps it takes.
-/

namespace InfraGraph
namespace Schedule

/-- Of the work, just the items of earlier sweeps are registered, and those of this sweep that stand
among the given ones. -/
structure KeptTo (pace : WorkItem × Nat → Nat) (work : List (WorkItem × Nat)) (base : Context)
    (sweep : Nat) (passed : List (WorkItem × Nat)) (ctx : Context) : Prop where
  extended : ctx.Extends base
  has_iff : ∀ y ∈ work, ctx.has y.1.producer.name y.1.entity.id = true ↔
    pace y < sweep ∨ (pace y = sweep ∧ y ∈ passed)

/-- An item that is still pending is ready in its sweep and in no earlier one, if the items so far
have kept to their sweeps. -/
structure Paced (pace : WorkItem × Nat → Nat) (work : List (WorkItem × Nat)) (base : Context) :
    Prop where
  keys_distinct : ((work.map Prod.fst).map WorkItem.key).Nodup
  keys_new : ∀ y ∈ work, base.has y.1.producer.name y.1.entity.id = false
  positive : ∀ y ∈ work, 1 ≤ pace y
  ready_iff : ∀ passed x later sweep ctx, work = passed ++ x :: later → 1 ≤ sweep →
    sweep ≤ pace x → KeptTo pace work base sweep passed ctx →
      (x.1.ready ctx = true ↔ pace x = sweep)

variable {pace : WorkItem × Nat → Nat} {work passed : List (WorkItem × Nat)}
  {base ctx next : Context} {sweep : Nat} {x : WorkItem × Nat}

/-- An item stands at some place. -/
theorem exists_place {items : List WorkItem} {item : WorkItem} (h : item ∈ items) :
    ∃ place, (item, place) ∈ items.zipIdx := by
  obtain ⟨place, hplace⟩ := List.mem_iff_getElem?.mp h
  exact ⟨place, List.mem_zipIdx_iff_getElem?.mpr hplace⟩

namespace KeptTo

/-- Before the first sweep nothing is registered. -/
theorem initial (hpaced : Paced pace work base) : KeptTo pace work base 1 [] base := by
  constructor
  · exact ⟨rfl, rfl, fun _ _ hhas => hhas⟩
  · intro y hy
    -- no item is due before the first sweep
    have hpos := hpaced.positive y hy
    rw [hpaced.keys_new y hy]
    simp only [Bool.false_eq_true, List.not_mem_nil, and_false, or_false, false_iff]
    omega

/-- An item of another sweep changes nothing. -/
theorem pass (h : KeptTo pace work base sweep passed ctx) (hx : pace x ≠ sweep) :
    KeptTo pace work base sweep (passed ++ [x]) ctx := by
  refine ⟨h.extended, ?_⟩
  intro y hy
  rw [h.has_iff y hy, List.mem_append, List.mem_singleton]
  constructor
  · rintro (hlt | ⟨heq, hmem⟩)
    · exact Or.inl hlt
    · exact Or.inr ⟨heq, Or.inl hmem⟩
  · rintro (hlt | ⟨heq, hmem | rfl⟩)
    · exact Or.inl hlt
    · exact Or.inr ⟨heq, hmem⟩
    · exact absurd heq hx

/-- An item of the sweep is registered when its turn is over. -/
theorem commit {c : Completion} (hkeys : ((work.map Prod.fst).map WorkItem.key).Nodup)
    (h : KeptTo pace work base sweep passed ctx) (hwork : x ∈ work) (hx : pace x = sweep)
    (hc : c.item = x.1) : KeptTo pace work base sweep (passed ++ [x]) (c.commit ctx) := by
  rw [List.map_map] at hkeys
  constructor
  · refine ⟨h.extended.schema_eq, h.extended.grants_eq, ?_⟩
    intro producer entity hhas
    exact Completion.has_commit.mpr (Or.inl (h.extended.kept producer entity hhas))
  · intro y hy
    have hsame : c.item.key = (y.1.producer.name, y.1.entity.id) ↔ y = x := by
      rw [hc]
      constructor
      · intro hkey
        exact List.inj_on_of_nodup_map hkeys hy hwork hkey.symm
      · rintro rfl
        rfl
    rw [Completion.has_commit, h.has_iff y hy, hsame, List.mem_append, List.mem_singleton]
    constructor
    · rintro ((hlt | ⟨heq, hmem⟩) | rfl)
      · exact Or.inl hlt
      · exact Or.inr ⟨heq, Or.inl hmem⟩
      · exact Or.inr ⟨hx, Or.inr rfl⟩
    · rintro (hlt | ⟨heq, hmem | hnew⟩)
      · exact Or.inl (Or.inl hlt)
      · exact Or.inl (Or.inr ⟨heq, hmem⟩)
      · exact Or.inr hnew

/-- When all work has had its turn, the next sweep begins. -/
theorem next_sweep (h : KeptTo pace work base sweep work ctx) :
    KeptTo pace work base (sweep + 1) [] ctx := by
  refine ⟨h.extended, ?_⟩
  intro y hy
  rw [h.has_iff y hy]
  simp only [hy, and_true, List.not_mem_nil, and_false, or_false]
  omega

end KeptTo

/-! ## One sweep -/

/-- A sweep over the work that is pending calls for the items of this sweep, and leaves those of
later ones. -/
theorem tracedSweep_paced (hpaced : Paced pace work base) (hsweep : 1 ≤ sweep)
    {rest left : List (WorkItem × Nat)} {calls : List Call} (hwork : work = passed ++ rest)
    (hkept : KeptTo pace work base sweep passed ctx)
    (h : tracedSweep ctx (rest.filter fun y => sweep ≤ pace y) = (calls, next, .ok left)) :
    calls.map Call.placed = (rest.filter fun y => pace y = sweep) ∧
      left = (rest.filter fun y => sweep + 1 ≤ pace y) ∧
      KeptTo pace work base sweep work next := by
  -- each item moves from the rest to what has had its turn, be it pending or not
  induction rest generalizing passed ctx calls left with
  | nil =>
      cases h
      rw [List.append_nil] at hwork
      rw [← hwork] at hkept
      exact ⟨rfl, rfl, hkept⟩
  | cons x later ih =>
      have hmem : x ∈ work := by
        rw [hwork]
        exact List.mem_append_right _ List.mem_cons_self
      have hlater : work = (passed ++ [x]) ++ later := by
        rw [hwork, List.append_assoc]
        rfl
      by_cases hpending : sweep ≤ pace x
      · have hready := hpaced.ready_iff passed x later sweep ctx hwork hsweep hpending hkept
        rw [List.filter_cons_of_pos (by simp [hpending])] at h
        rcases tracedSweep_cons h with ⟨c, others, hc, hfits, rfl, hnext⟩ | ⟨_, _, _, _, he⟩ |
          ⟨hnot, left', hnext, he⟩
        · have hnow : pace x = sweep := by
            rw [← hready, ← hc]
            exact hfits.ready
          obtain ⟨hcalls, hleft, hend⟩ :=
            ih hlater (hkept.commit hpaced.keys_distinct hmem hnow hc) hnext
          refine ⟨?_, ?_, hend⟩
          · rw [List.filter_cons_of_pos (by simp [hnow]), List.map_cons, hcalls]
            simp only [Call.placed, Completion.call, hc]
          · rw [List.filter_cons_of_neg (by simp [hnow]), hleft]
        · cases he
        · -- pending and not ready, so due later
          have hlate : pace x ≠ sweep := by
            intro hnow
            rw [hready.mpr hnow] at hnot
            cases hnot
          cases left' with
          | error e => cases he
          | ok others =>
              cases he
              obtain ⟨hcalls, hleft, hend⟩ := ih hlater (hkept.pass hlate) hnext
              refine ⟨?_, ?_, hend⟩
              · rw [List.filter_cons_of_neg (by simp [hlate]), hcalls]
              · have hafter : sweep + 1 ≤ pace x := by omega
                rw [List.filter_cons_of_pos (by simp [hafter]), hleft]
      · -- completed in an earlier sweep, so not offered again
        have hearly : pace x ≠ sweep := by omega
        rw [List.filter_cons_of_neg (by simp [hpending])] at h
        obtain ⟨hcalls, hleft, hend⟩ := ih hlater (hkept.pass hearly) h
        refine ⟨?_, ?_, hend⟩
        · rw [List.filter_cons_of_neg (by simp [hearly]), hcalls]
        · have hbefore : ¬sweep + 1 ≤ pace x := by omega
          rw [List.filter_cons_of_neg (by simp [hbefore]), hleft]

/-! ## All sweeps -/

/-- Draining calls for each item in its sweep, and ends with the sweep of the last ones. -/
theorem tracedDrain_paced (hpaced : Paced pace work base) (hsweep : 1 ≤ sweep)
    {calls : List (List Call)} (hkept : KeptTo pace work base sweep [] ctx)
    (h : tracedDrain ctx (work.filter fun y => sweep ≤ pace y) = (calls, next, .ok ())) :
    calls.map (List.map Call.placed) =
        ((List.range calls.length).map fun k => work.filter fun y => pace y = sweep + k) ∧
      (∀ y ∈ work, pace y < sweep + calls.length) ∧
      (calls ≠ [] → ∃ y ∈ work, pace y + 1 = sweep + calls.length) := by
  induction calls generalizing sweep ctx with
  | nil =>
      rcases tracedDrain_cases h with ⟨hnone, _, _, _⟩ | ⟨_, _, _, hcalls, _⟩ |
        ⟨_, _, _, _, _, _, hcalls, _⟩ | ⟨_, _, _, _, _, hcalls, _⟩
      · refine ⟨rfl, ?_, by simp⟩
        intro y hy
        have hnot := List.filter_eq_nil_iff.mp hnone y hy
        simpa using hnot
      · cases hcalls
      · cases hcalls
      · cases hcalls
  | cons first later ih =>
      rcases tracedDrain_cases h with ⟨_, hcalls, _, _⟩ | ⟨_, _, _, _, he⟩ |
        ⟨_, _, mid, left, hfirst, hless, hcalls, hlater⟩ | ⟨_, _, _, _, _, _, he⟩
      · cases hcalls
      · cases he
      · cases hcalls
        obtain ⟨hplaced, rfl, hend⟩ :=
          tracedSweep_paced hpaced hsweep (List.nil_append work).symm hkept hfirst
        obtain ⟨hothers, hbelow, hlast⟩ := ih (Nat.le_add_left 1 sweep) hend.next_sweep hlater
        rw [List.length_cons]
        refine ⟨?_, ?_, ?_⟩
        · -- counted from this sweep, the later ones stand one further on
          have hshift : ∀ k, (work.filter fun y => pace y = sweep + 1 + k) =
              work.filter fun y => pace y = sweep + (k + 1) := by
            intro k
            rw [Nat.add_assoc, Nat.add_comm 1 k]
          calc (first :: later).map (List.map Call.placed)
              = (work.filter fun y => pace y = sweep) ::
                  (List.range later.length).map fun k =>
                    work.filter fun y => pace y = sweep + (k + 1) := by
                rw [List.map_cons, hplaced, hothers]
                simp only [hshift]
            _ = (List.range (later.length + 1)).map fun k =>
                  work.filter fun y => pace y = sweep + k := by
                rw [List.range_succ_eq_map, List.map_cons, List.map_map]
                rfl
        · intro y hy
          have hy' := hbelow y hy
          omega
        · intro _
          by_cases hnone : later = []
          · -- what this sweep has found pending is of this sweep, since none is left
            subst hnone
            obtain ⟨y, hy⟩ := List.exists_mem_of_length_pos (Nat.zero_lt_of_lt hless)
            obtain ⟨hwork, hpending⟩ := List.mem_filter.mp hy
            have hge := of_decide_eq_true hpending
            have hlt := hbelow y hwork
            simp only [List.length_nil] at hlt ⊢
            exact ⟨y, hwork, by omega⟩
          · obtain ⟨y, hy, hpace⟩ := hlast hnone
            exact ⟨y, hy, by omega⟩
      · cases he

/-- What is told of calls by the items and places that they are for. -/
theorem map_of_placed {β : Type} {calls : List (List Call)} {sweeps : Nat}
    {due : Nat → List (WorkItem × Nat)}
    (h : calls.map (List.map Call.placed) = (List.range sweeps).map due)
    (f : WorkItem × Nat → β) :
    calls.map (List.map fun call => f call.placed) =
      (List.range sweeps).map fun k => (due k).map f := by
  calc calls.map (List.map fun call => f call.placed)
      = (calls.map (List.map Call.placed)).map (List.map f) := by
        rw [List.map_map]
        refine List.map_congr_left fun sweep _ => ?_
        rw [Function.comp_apply, List.map_map]
        rfl
    _ = (List.range sweeps).map fun k => (due k).map f := by
        rw [h, List.map_map]
        rfl

/-- A run at a pace calls for each item in its sweep, in order of the places, and takes as many
sweeps as the slowest item. -/
theorem trace_paced {producers : List Producer} {calls : List (List Call)}
    (hpaced : Paced pace (items producers base.schema).zipIdx base)
    (h : trace producers base = (calls, next, .ok ())) :
    calls.map (List.map Call.placed) = ((List.range calls.length).map fun k =>
        (items producers base.schema).zipIdx.filter fun y => pace y = k + 1) ∧
      (∀ y ∈ (items producers base.schema).zipIdx, pace y ≤ calls.length) ∧
      (calls ≠ [] → ∃ y ∈ (items producers base.schema).zipIdx, pace y = calls.length) := by
  have hall : ((items producers base.schema).zipIdx.filter fun y => 1 ≤ pace y) =
      (items producers base.schema).zipIdx :=
    List.filter_eq_self.mpr fun y hy => decide_eq_true (hpaced.positive y hy)
  rw [trace, ← hall] at h
  obtain ⟨hplaced, hbelow, hlast⟩ :=
    tracedDrain_paced hpaced (Nat.le_refl 1) (KeptTo.initial hpaced) h
  refine ⟨?_, ?_, ?_⟩
  · rw [hplaced]
    simp only [Nat.add_comm 1]
  · intro y hy
    have hy' := hbelow y hy
    omega
  · intro hne
    obtain ⟨y, hy, hpace⟩ := hlast hne
    exact ⟨y, hy, by omega⟩

end Schedule
end InfraGraph
