import InfraGraph.Resource.Plan
import Mathlib.Algebra.Group.Nat.Defs

/-!
# Counting the changes of a plan

Every change has one of four actions, so the four numbers of changes add up to all of them.  A plan
keeps these numbers in 32 bits, and so is the sum that tells whether it is empty: both are exact as
long as there are fewer than 2 ^ 32 changes.  Main statements:

* `Plan.sum_countOf` — every change is counted once;
* `Plan.isEmpty_iff_dvd` — when a plan is said to be empty, for any number of changes;
* `Plan.isEmpty_iff_keep` — when it is, for fewer than 2 ^ 32 of them.
-/

namespace InfraGraph
namespace Plan

variable {app : String} {cs : List PlannedChange} {action : PlanAction}

/-- Every change is counted once. -/
theorem sum_countOf (cs : List PlannedChange) :
    countOf cs .create + countOf cs .update + countOf cs .destroy + countOf cs .keep =
      cs.length := by
  unfold countOf
  induction cs with
  | nil => rfl
  | cons c rest ih =>
      cases haction : c.action <;> simp [haction] <;> omega

/-- The changes that are carried out are the ones that create, update or destroy. -/
theorem countP_ne_keep (cs : List PlannedChange) :
    (cs.countP fun c => c.action ≠ .keep) =
      countOf cs .create + countOf cs .update + countOf cs .destroy := by
  unfold countOf
  induction cs with
  | nil => rfl
  | cons c rest ih =>
      cases haction : c.action <;> simp [haction] at ih ⊢ <;> omega

theorem countOf_eq_zero_iff : countOf cs action = 0 ↔ ∀ c ∈ cs, c.action ≠ action := by
  simp [countOf, List.countP_eq_zero]

/-- No more changes are counted than were made. -/
theorem countOf_map_le {α : Type} (as : List α) (f : α → PlannedChange) (action : PlanAction) :
    countOf (as.map f) action ≤ as.length := by
  have hle : countOf (as.map f) action ≤ (as.map f).length := List.countP_le_length
  rwa [List.length_map] at hle

/-- Counts are added modulo 2 ^ 32, so a plan is said to be empty iff this divides the number of
changes that are carried out. -/
theorem isEmpty_iff_dvd :
    (ofChanges app cs).isEmpty = true ↔ 2 ^ 32 ∣ cs.countP fun c => c.action ≠ .keep := by
  have hsum : (ofChanges app cs).toCreate + (ofChanges app cs).toUpdate +
      (ofChanges app cs).toDestroy = UInt32.ofNat (cs.countP fun c => c.action ≠ .keep) := by
    rw [countP_ne_keep, UInt32.ofNat_add, UInt32.ofNat_add]
    rfl
  rw [isEmpty, hsum, beq_iff_eq, ← UInt32.toNat_inj, UInt32.toNat_ofNat', Nat.dvd_iff_mod_eq_zero]
  rfl

/-- A plan that keeps everything is empty. -/
theorem isEmpty_of_keep (h : ∀ c ∈ cs, c.action = .keep) : (ofChanges app cs).isEmpty = true := by
  have hnone : (cs.countP fun c => c.action ≠ .keep) = 0 := by
    simpa [List.countP_eq_zero] using h
  rw [isEmpty_iff_dvd, hnone]
  exact Nat.dvd_zero _

/-- With fewer than 2 ^ 32 changes the sum cannot wrap, and only a plan that keeps everything is
empty. -/
theorem isEmpty_iff_keep (hlength : cs.length < 2 ^ 32) :
    (ofChanges app cs).isEmpty = true ↔ ∀ c ∈ cs, c.action = .keep := by
  refine ⟨fun h => ?_, isEmpty_of_keep⟩
  have hzero : (cs.countP fun c => c.action ≠ .keep) = 0 :=
    Nat.eq_zero_of_dvd_of_lt (isEmpty_iff_dvd.mp h)
      (Nat.lt_of_le_of_lt List.countP_le_length hlength)
  simpa [List.countP_eq_zero] using hzero

end Plan
end InfraGraph
