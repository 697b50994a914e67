import Mathlib.Data.Finset.Lattice.Fold
import Mathlib.Data.Fintype.EquivFin
import Mathlib.Order.Lattice.Nat
import InfraGraph.Proofs.Generation.Pace
import InfraGraph.Proofs.Generation.Stall

/-!
# How many sweeps a run takes

An item that waits for others is completed in the sweep of the last of them, if that stands before
it, and in the next sweep otherwise.  So the sweep of an item is fixed by what it waits for and by
the order of the items alone.  Main statements:

* `Prerequisites` — which items each item waits for, without a cycle;
* `Prerequisites.level`, `Prerequisites.level_eq` — the sweep of an item, by recursion over what it
  waits for;
* `Schedule.Governs` — each item is ready iff what it waits for is registered;
* `Schedule.paced_of_governs` — the items become ready at the pace of their levels;
* `Schedule.run_levels` — a run succeeds, and completes each item in the sweep of its level.
-/

namespace InfraGraph

/-! ## Levels -/

/-- Which items each item waits for, told by their places; no item waits for itself in the end. -/
structure Prerequisites (n : Nat) where
  needs : Fin n → Finset (Fin n)
  acyclic : ∀ i, ¬Relation.TransGen (fun j i => j ∈ needs i) i i

namespace Prerequisites

variable {n : Nat} (p : Prerequisites n)

/-- No item waits for itself, so levels can be computed. -/
theorem wellFounded : WellFounded fun j i => j ∈ p.needs i := by
  have hirrefl : Std.Irrefl (Relation.TransGen fun j i => j ∈ p.needs i) := ⟨p.acyclic⟩
  have htrans : WellFounded (Relation.TransGen fun j i => j ∈ p.needs i) :=
    Finite.wellFounded_of_trans_of_irrefl _
  exact Subrelation.wf (fun hji => Relation.TransGen.single hji) htrans

/-- The sweep of an item: the latest one of what it waits for, or one more where that stands behind
it. -/
noncomputable def level : Fin n → Nat :=
  p.wellFounded.fix fun i level =>
    max 1 ((p.needs i).attach.sup fun j => if j.1 < i then level j.1 j.2 else level j.1 j.2 + 1)

/-- The level of an item is the highest one that it waits for, or one more if that stands behind
it. -/
theorem level_eq (i : Fin n) :
    p.level i = max 1 ((p.needs i).sup fun j => if j < i then p.level j else p.level j + 1) := by
  rw [level, WellFounded.fix_eq]
  exact congrArg (max 1)
    (Finset.sup_attach (p.needs i) fun j => if j < i then p.level j else p.level j + 1)

/-- Levels begin at one. -/
theorem one_le_level (i : Fin n) : 1 ≤ p.level i := by
  rw [level_eq]
  exact Nat.le_max_left 1 _

/-- The sweep of an item has come iff all it waits for is from earlier sweeps, or from this one and
stands before it. -/
theorem level_le_iff {i : Fin n} {sweep : Nat} (h : 1 ≤ sweep) :
    p.level i ≤ sweep ↔
      ∀ j ∈ p.needs i, p.level j < sweep ∨ (p.level j = sweep ∧ j < i) := by
  rw [level_eq, Nat.max_le, Finset.sup_le_iff, and_iff_right h]
  refine forall₂_congr fun j _ => ?_
  by_cases hbefore : j < i
  · rw [if_pos hbefore]
    simp only [hbefore, and_true]
    omega
  · rw [if_neg hbefore]
    simp only [hbefore, and_false, or_false]
    omega

end Prerequisites

namespace Schedule

variable {producers : List Producer} {base next : Context}

/-! ## Places -/

/-- Work at its places. -/
theorem zipIdx_eq_map_finRange (work : List WorkItem) :
    work.zipIdx = (List.finRange work.length).map fun i => (work[i], i.val) := by
  apply List.ext_getElem <;> simp

/-- What stands before an item has the smaller places. -/
theorem mem_passed_iff {work : List WorkItem} {passed later : List (WorkItem × Nat)}
    {x y : WorkItem × Nat} (h : work.zipIdx = passed ++ x :: later) (hy : y ∈ work.zipIdx) :
    y ∈ passed ↔ y.2 < x.2 := by
  have hsorted : work.zipIdx.Pairwise fun a b => a.2 < b.2 := by
    apply List.pairwise_map.mp
    rw [List.zipIdx_map_snd]
    exact List.pairwise_lt_range'
  rw [h] at hsorted hy
  obtain ⟨_, hrest, hbefore⟩ := List.pairwise_append.mp hsorted
  have hafter := (List.pairwise_cons.mp hrest).1
  constructor
  · intro hmem
    exact hbefore y hmem x List.mem_cons_self
  · intro hlt
    rcases List.mem_append.mp hy with hmem | hmem
    · exact hmem
    · rcases List.mem_cons.mp hmem with rfl | hmem
      · exact absurd hlt (Nat.lt_irrefl _)
      · exact absurd hlt (Nat.lt_asymm (hafter y hmem))

/-! ## The pace of levels -/

/-- Each item is ready iff what it waits for is registered. -/
def Governs (producers : List Producer) (base : Context)
    (p : Prerequisites (items producers base.schema).length) : Prop :=
  ∀ i, ∀ ctx : Context, ctx.Extends base →
    ((items producers base.schema)[i].ready ctx = true ↔ ∀ j ∈ p.needs i,
      ctx.has (items producers base.schema)[j].producer.name
        (items producers base.schema)[j].entity.id = true)

variable {p : Prerequisites (items producers base.schema).length}

/-- Governed readiness is never lost. -/
theorem ready_mono_of_governs (hgoverns : Governs producers base p) :
    ∀ i ∈ items producers base.schema, ∀ ctx next : Context, ctx.Extends base →
      next.Extends ctx → i.ready ctx = true → i.ready next = true := by
  intro i hi ctx next hctx hnext hready
  obtain ⟨k, hk, rfl⟩ := List.getElem_of_mem hi
  have hneeds := (hgoverns ⟨k, hk⟩ ctx hctx).mp hready
  apply (hgoverns ⟨k, hk⟩ next (hnext.trans hctx)).mpr
  intro j hj
  exact hnext.kept _ _ (hneeds j hj)

/-- Level of the item at a place. -/
noncomputable def levelAt {n : Nat} (p : Prerequisites n) (x : WorkItem × Nat) : Nat :=
  if h : x.2 < n then p.level ⟨x.2, h⟩ else 1

theorem levelAt_place {n : Nat} (p : Prerequisites n) (item : WorkItem) (i : Fin n) :
    levelAt p (item, i.val) = p.level i := by
  rw [levelAt, dif_pos i.isLt]

/-- Items that are governed are ready in the sweep of their level and in no earlier one. -/
theorem paced_of_governs (hgoverns : Governs producers base p)
    (hkeys : ((items producers base.schema).map WorkItem.key).Nodup)
    (hnew : ∀ i ∈ items producers base.schema, base.has i.producer.name i.entity.id = false) :
    Paced (levelAt p) (items producers base.schema).zipIdx base := by
  have hplace : ∀ y ∈ (items producers base.schema).zipIdx,
      ∃ i : Fin (items producers base.schema).length,
        y = ((items producers base.schema)[i], i.val) := by
    intro y hy
    rw [zipIdx_eq_map_finRange] at hy
    obtain ⟨i, _, rfl⟩ := List.mem_map.mp hy
    exact ⟨i, rfl⟩
  constructor
  · rwa [List.zipIdx_map_fst]
  · intro y hy
    obtain ⟨i, rfl⟩ := hplace y hy
    exact hnew _ (List.getElem_mem i.isLt)
  · intro y hy
    obtain ⟨i, rfl⟩ := hplace y hy
    rw [levelAt_place]
    exact p.one_le_level i
  · intro passed x later sweep ctx hwork hsweep hpending hkept
    have hx : x ∈ (items producers base.schema).zipIdx := by
      rw [hwork]
      exact List.mem_append_right _ List.mem_cons_self
    obtain ⟨i, rfl⟩ := hplace x hx
    rw [levelAt_place] at hpending ⊢
    -- what is registered of the needs is what the level of the item speaks of
    have hneeds : ∀ j ∈ p.needs i, ctx.has (items producers base.schema)[j].producer.name
        (items producers base.schema)[j].entity.id = true ↔
          p.level j < sweep ∨ (p.level j = sweep ∧ j < i) := by
      intro j _
      have hj : ((items producers base.schema)[j], j.val) ∈
          (items producers base.schema).zipIdx := by
        rw [zipIdx_eq_map_finRange]
        exact List.mem_map_of_mem (List.mem_finRange j)
      rw [hkept.has_iff _ hj, levelAt_place, mem_passed_iff hwork hj]
      rfl
    rw [hgoverns i ctx hkept.extended, forall₂_congr hneeds, ← p.level_le_iff hsweep]
    omega

/-! ## Runs -/

/-- Where items wait for each other without a cycle, and nothing else can keep them back, a run
succeeds. -/
theorem run_succeeds_of_governs (hgoverns : Governs producers base p)
    (hwork : Unhindered (items producers base.schema) base) {e : GenerationError} :
    run producers base ≠ (next, .error e) := by
  intro hrun
  obtain ⟨done, mid, left, hdone, hperm, hfail⟩ := run_error hrun
  rcases hfail with ⟨item, hitem, hready, hcomplete⟩ | ⟨rfl, hne, hsub, hstuck, _⟩
  · exact no_error_of_unhindered hwork hdone hperm hitem hready hcomplete
  · obtain ⟨item, hitem⟩ := List.exists_mem_of_ne_nil left hne
    obtain ⟨k, hk, rfl⟩ := List.getElem_of_mem (hsub.subset hitem)
    -- of the items that are left, one waits for none of the others
    obtain ⟨i, hleft, hleast⟩ := p.wellFounded.has_min
      {i | (items producers base.schema)[i] ∈ left} ⟨⟨k, hk⟩, hitem⟩
    have hready : (items producers base.schema)[i].ready mid = true := by
      apply (hgoverns i mid hdone.extended).mpr
      intro j hj
      have hnot : ¬(items producers base.schema)[j] ∈ left := fun hmem => hleast j hmem hj
      have hmem := hperm.mem_iff.mp (List.getElem_mem j.isLt)
      obtain ⟨c, hc, hsame⟩ := List.mem_map.mp ((List.mem_append.mp hmem).resolve_right hnot)
      refine hdone.has_iff.mpr (Or.inr ⟨c, hc, ?_⟩)
      rw [hsame]
      rfl
    rw [hstuck _ hleft] at hready
    cases hready

/-- The sweeps of a run are as many as the highest level, and each item is completed in the sweep of
its level, in order of the places.  Beside being governed, items are asked to have generators that
do not fail, and keys and addresses of their own. -/
theorem run_levels (hgoverns : Governs producers base p)
    (hgenerates : ∀ i ∈ items producers base.schema, ∀ ctx,
      Reached (items producers base.schema) base ctx → i.ready ctx = true →
        ∃ g, i.producer.generate ctx i.entity = .ok g)
    (hkeys : ((items producers base.schema).map WorkItem.key).Nodup)
    (hnew : ∀ i ∈ items producers base.schema, base.has i.producer.name i.entity.id = false)
    (hdistinct : ∀ i ∈ items producers base.schema, ∀ g,
      Yields (items producers base.schema) base i g → (g.resources.map Resource.address).Nodup)
    (hfresh : ∀ i ∈ items producers base.schema, ∀ g,
      Yields (items producers base.schema) base i g →
        ∀ r ∈ g.resources, ¬r.address ∈ base.addresses)
    (hapart : ∀ i ∈ items producers base.schema, ∀ j ∈ items producers base.schema, i ≠ j →
      ∀ g g', Yields (items producers base.schema) base i g →
        Yields (items producers base.schema) base j g' →
          ∀ r ∈ g.resources, ∀ r' ∈ g'.resources, r.address ≠ r'.address) :
    (∀ i, p.level i =
        max 1 ((p.needs i).sup fun j => if j < i then p.level j else p.level j + 1)) ∧
      ∃ calls next, trace producers base = (calls, next, .ok ()) ∧
        run producers base =
          (next, .ok ⟨Finset.univ.sup p.level, (items producers base.schema).length⟩) ∧
        calls.map (List.map Call.place) = (List.range (Finset.univ.sup p.level)).map fun k =>
          ((List.finRange _).filter fun i => p.level i = k + 1).map Fin.val := by
  have hwork : Unhindered (items producers base.schema) base :=
    ⟨ready_mono_of_governs hgoverns, hgenerates, hkeys, hnew, hdistinct, hfresh, hapart⟩
  refine ⟨p.level_eq, ?_⟩
  obtain ⟨calls, next, outcome, htrace⟩ : ∃ calls next outcome,
      trace producers base = (calls, next, outcome) := ⟨_, _, _, rfl⟩
  have hrun := run_of_trace htrace
  cases outcome with
  | error e => exact absurd hrun (run_succeeds_of_governs hgoverns hwork)
  | ok u =>
      have hpaced := paced_of_governs hgoverns hkeys hnew
      obtain ⟨hplaced, hbound, hlast⟩ := trace_paced hpaced htrace
      rw [zipIdx_eq_map_finRange] at hplaced hbound hlast
      -- every level is reached, and the last sweep has completed an item
      have hsweeps : calls.length = Finset.univ.sup p.level := by
        apply Nat.le_antisymm
        · by_cases hnone : calls = []
          · rw [hnone]
            exact Nat.zero_le _
          · obtain ⟨y, hy, hlevel⟩ := hlast hnone
            obtain ⟨i, _, rfl⟩ := List.mem_map.mp hy
            rw [← hlevel, levelAt_place]
            exact Finset.le_sup (Finset.mem_univ i)
        · apply Finset.sup_le
          intro i _
          have hi := hbound _ (List.mem_map_of_mem (List.mem_finRange i))
          rwa [levelAt_place] at hi
      refine ⟨calls, next, htrace, by rw [hrun, hsweeps]; rfl, ?_⟩
      have hplaces := map_of_placed hplaced Prod.snd
      rw [hsweeps] at hplaces
      refine hplaces.trans (List.map_congr_left fun k _ => ?_)
      rw [List.filter_map, List.map_map]
      simp only [Function.comp_def, levelAt_place]

/-- Producers each of which stands in front of the one that it waits for. -/
def ladder : List Producer :=
  [waiting "third" ["second"], waiting "second" ["first"], waiting "first" []]

/-- Each item waits for the one behind it. -/
def ladderNeeds : Prerequisites 3 where
  needs i := Finset.univ.filter fun j => j.val = i.val + 1
  acyclic := by
    have hup : ∀ i j : Fin 3, Relation.TransGen
        (fun j i => j ∈ Finset.univ.filter fun j : Fin 3 => j.val = i.val + 1) j i → i < j := by
      intro i j h
      induction h with
      | single h =>
          have hj := (Finset.mem_filter.mp h).2
          omega
      | tail _ h ih =>
          have hj := (Finset.mem_filter.mp h).2
          omega
    intro i h
    exact lt_irrefl i (hup i i h)

theorem needs_ladder :
    ladderNeeds.needs 0 = {1} ∧ ladderNeeds.needs 1 = {2} ∧ ladderNeeds.needs 2 = ∅ := by
  decide

/-- The producers of the ladder wait for each other as said. -/
theorem governs_ladder : Governs ladder (.initial Schema.shop ⟨.empty⟩) ladderNeeds := by
  obtain ⟨hthird, hsecond, hfirst⟩ := needs_ladder
  intro i ctx _
  match i with
  | ⟨0, _⟩ =>
      change (["second"].all fun need => ctx.has need (.lambda "users")) = true ↔
        ∀ j ∈ ladderNeeds.needs 0, _
      simp only [hthird, Finset.mem_singleton, forall_eq, List.all_cons, List.all_nil,
        Bool.and_true]
      exact Iff.rfl
  | ⟨1, _⟩ =>
      change (["first"].all fun need => ctx.has need (.lambda "users")) = true ↔
        ∀ j ∈ ladderNeeds.needs 1, _
      simp only [hsecond, Finset.mem_singleton, forall_eq, List.all_cons, List.all_nil,
        Bool.and_true]
      exact Iff.rfl
  | ⟨2, _⟩ =>
      change true = true ↔ ∀ j ∈ ladderNeeds.needs 2, _
      simp [hfirst]

/-- The three items take three sweeps, as each stands in front of the one that it waits for. -/
theorem run_levels_ladder :
    ∃ calls next, trace ladder (.initial Schema.shop ⟨.empty⟩) = (calls, next, .ok ()) ∧
      run ladder (.initial Schema.shop ⟨.empty⟩) = (next, .ok ⟨3, 3⟩) ∧
      calls.map (List.map Call.place) = [[2], [1], [0]] := by
  have hunhindered : Unhindered (items ladder Schema.shop) (.initial Schema.shop ⟨.empty⟩) := by
    refine @unhindered_of_waiting ladder (.initial Schema.shop ⟨.empty⟩) ?_ ?_ ?_ ?_ ?_
    · simp only [ladder, List.forall_mem_cons]
      exact ⟨⟨_, _, rfl⟩, ⟨_, _, rfl⟩, ⟨_, _, rfl⟩, by simp⟩
    · decide
    · decide
    · decide
    · rfl
  obtain ⟨_, calls, next, htrace, hrun, hplaces⟩ := run_levels governs_ladder
    hunhindered.generates hunhindered.keys_distinct hunhindered.keys_new
    hunhindered.addresses_distinct hunhindered.addresses_new hunhindered.addresses_apart
  obtain ⟨hthird, hsecond, hfirst⟩ := needs_ladder
  have hlow : ladderNeeds.level 2 = 1 := by
    rw [ladderNeeds.level_eq, hfirst, Finset.sup_empty]
    rfl
  have hmiddle : ladderNeeds.level 1 = 2 := by
    rw [ladderNeeds.level_eq, hsecond, Finset.sup_singleton, if_neg (by decide), hlow]
    rfl
  have hhigh : ladderNeeds.level 0 = 3 := by
    rw [ladderNeeds.level_eq, hthird, Finset.sup_singleton, if_neg (by decide), hmiddle]
    rfl
  have hlevels : ∀ i : Fin 3, ladderNeeds.level i = 3 - i.val := by
    intro i
    match i with
    | 0 => exact hhigh
    | 1 => exact hmiddle
    | 2 => exact hlow
  have hsweeps : Finset.univ.sup ladderNeeds.level = 3 := by
    rw [funext hlevels]
    rfl
  refine ⟨calls, next, htrace, ?_, ?_⟩
  · rw [hrun]
    exact congrArg (fun sweeps => (next, Except.ok (SweepReport.mk sweeps 3))) hsweeps
  · rw [hplaces]
    change ((List.range (Finset.univ.sup ladderNeeds.level)).map fun k =>
      ((List.finRange 3).filter fun i => ladderNeeds.level i = k + 1).map Fin.val) = _
    rw [hsweeps]
    simp only [hlevels]
    decide

end Schedule
end InfraGraph
