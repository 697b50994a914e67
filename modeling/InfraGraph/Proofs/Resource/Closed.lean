import Mathlib.Data.List.Nodup
import Mathlib.Logic.Relation
import InfraGraph.Proofs.Resource.Address
import InfraGraph.Proofs.Resource.Refs

/-!
# Closed resource graphs

A list of resources is closed if everything it refers to is in it, dependencies come first, and
nobody refers to itself through others.  Resources may refer forward, so the order of the list alone
does not rule out a cycle.  What does is a class of late resources: only these refer forward, and
only to others that are not late and never refer to late ones.  Main statements:

* `Resource.Closed` — the graph of a list of resources is closed and without cycles;
* `Resource.Linked`, `Resource.LinkedAfter` — each resource is linked to those before it, or to
  resources that are promised;
* `Resource.closed_of_linked` — linked resources whose promises are kept are closed.
-/

namespace InfraGraph
namespace Resource

/-! ## The graph of a list of resources -/

/-- A resource depends on another one, or refers to an attribute of it. -/
def PointsTo (r t : Resource) : Prop :=
  t.address ∈ r.dependsOn ∨ ∃ part : String, part ≠ "" ∧ t.attr part ∈ r.refs

/-- Everything that is referred to is there, dependencies stand before, and no path of references
and dependencies leads back to where it began. -/
structure Closed (rs : List Resource) : Prop where
  dependencies_before : ∀ before r after, rs = before ++ r :: after →
    ∀ address ∈ r.dependsOn, ∃ t ∈ before, t.address = address
  references_unique : ∀ r ∈ rs, ∀ ref ∈ r.refs,
    ∃! i : Fin rs.length, ∃ part : String, part ≠ "" ∧ ref = rs[i].attr part
  acyclic : ∀ i : Fin rs.length,
    ¬Relation.TransGen (fun i j : Fin rs.length => rs[i].PointsTo rs[j]) i i

/-! ## Links -/

variable {late : Resource → Prop} {promised : String → Prop}

/-- What a resource refers to stands before it, and is late only if the resource is; a late
resource may also refer to what is promised. -/
structure Linked (late : Resource → Prop) (promised : String → Prop) (before : List Resource)
    (r : Resource) : Prop where
  dependencies : ∀ address ∈ r.dependsOn, ∃ t ∈ before, t.address = address ∧ (late t → late r)
  references : ∀ ref ∈ r.refs,
    (∃ t ∈ before, (∃ part : String, part ≠ "" ∧ ref = t.attr part) ∧ (late t → late r)) ∨
      (late r ∧ promised ref)

/-- Each resource of a list is linked to those before it. -/
def LinkedAfter (late : Resource → Prop) (promised : String → Prop) :
    List Resource → List Resource → Prop
  | _, [] => True
  | before, r :: rest =>
      Linked late promised before r ∧ LinkedAfter late promised (before ++ [r]) rest

/-- Links may be checked part by part, the second part after the first. -/
theorem linkedAfter_append {before xs ys : List Resource} :
    LinkedAfter late promised before (xs ++ ys) ↔
      LinkedAfter late promised before xs ∧ LinkedAfter late promised (before ++ xs) ys := by
  induction xs generalizing before with
  | nil => simp [LinkedAfter]
  | cons r rest ih =>
      rw [List.cons_append, LinkedAfter, LinkedAfter, ih, and_assoc]
      simp

/-- Lists that are linked wherever they stand can be put one behind the other. -/
theorem linkedAfter_flatMap {α : Type} {before : List Resource} {xs : List α}
    {f : α → List Resource}
    (h : ∀ a ∈ xs, ∀ more, LinkedAfter late promised (before ++ more) (f a)) :
    LinkedAfter late promised before (xs.flatMap f) := by
  induction xs generalizing before with
  | nil => trivial
  | cons a rest ih =>
      rw [List.flatMap_cons, linkedAfter_append]
      refine ⟨by simpa using h a List.mem_cons_self [], ih fun b hb more => ?_⟩
      rw [List.append_assoc]
      exact h b (List.mem_cons_of_mem _ hb) (f a ++ more)

theorem LinkedAfter.linked {before xs ys : List Resource} {r : Resource}
    (h : LinkedAfter late promised before (xs ++ r :: ys)) :
    Linked late promised (before ++ xs) r :=
  (linkedAfter_append.mp h).2.1

/-! ## Links make a graph closed -/

section

variable {rs : List Resource}

/-- Where addresses differ, a resource that is pointed to is found at its own position. -/
theorem eq_of_address_eq (haddresses : (rs.map address).Nodup) {i j : Nat} (hi : i < rs.length)
    (hj : j < rs.length) (h : rs[i].address = rs[j].address) : i = j := by
  have hi' : i < (rs.map address).length := by simpa using hi
  have hj' : j < (rs.map address).length := by simpa using hj
  have hget : (rs.map address)[i] = (rs.map address)[j] := by simpa using h
  exact haddresses.getElem_inj_iff.mp hget

/-- A resource that stands before a position has a position of its own, a smaller one. -/
theorem exists_lt_of_mem_take {t : Resource} {n : Nat} (h : t ∈ rs.take n) :
    ∃ k, ∃ hk : k < rs.length, k < n ∧ rs[k] = t := by
  rcases List.getElem_of_mem h with ⟨k, hk, rfl⟩
  simp only [List.length_take] at hk
  exact ⟨k, by omega, by omega, by simp⟩

theorem LinkedAfter.getElem (h : LinkedAfter late promised [] rs) {i : Nat} (hi : i < rs.length) :
    Linked late promised (rs.take i) rs[i] := by
  have hsplit : rs = rs.take i ++ rs[i] :: rs.drop (i + 1) := by simp
  rw [hsplit] at h
  simpa using h.linked

/-- Late resources come after all others, and then each after those that stand before it. -/
def rank (late : Resource → Prop) [DecidablePred late] (rs : List Resource) (i : Fin rs.length) :
    Nat :=
  if late rs[i] then rs.length + i else i

variable [DecidablePred late]

/-- To point to a resource is to go down in rank. -/
theorem rank_lt_of_pointsTo (haddresses : (rs.map address).Nodup)
    (hplain : ∀ r ∈ rs, r.Addressable) (hlinked : LinkedAfter late promised [] rs)
    (hkept : ∀ ref, promised ref →
      ∃ t ∈ rs, ¬late t ∧ ∃ part : String, part ≠ "" ∧ ref = t.attr part)
    {i j : Fin rs.length} (h : rs[i].PointsTo rs[j]) : rank late rs j < rank late rs i := by
  have hlink := hlinked.getElem i.isLt
  -- a resource before `i` with the address of `j` is `j`
  have hback : ∀ t ∈ rs.take i, t.address = rs[j].address → (late t → late rs[i]) →
      rank late rs j < rank late rs i := by
    intro t ht hta hlate
    rcases exists_lt_of_mem_take ht with ⟨k, hk, hki, rfl⟩
    have hkj : k = j := eq_of_address_eq haddresses hk j.isLt hta
    subst hkj
    unfold rank
    by_cases hj : late rs[j]
    · rw [if_pos hj, if_pos (hlate hj)]
      omega
    · rw [if_neg hj]
      split <;> omega
  rcases h with hdep | ⟨part, hpart, href⟩
  · rcases hlink.dependencies _ hdep with ⟨t, ht, hta, hlate⟩
    exact hback t ht hta hlate
  · rcases hlink.references _ href with ⟨t, ht, ⟨piece, _, hattr⟩, hlate⟩ | ⟨hlate, hpromise⟩
    · have hta := address_eq_of_attr_eq (hplain t (List.mem_of_mem_take ht))
        (hplain _ (List.getElem_mem j.isLt)) hattr.symm
      exact hback t ht hta hlate
    · -- what is promised is not late, so it ranks below a late resource wherever it stands
      rcases hkept _ hpromise with ⟨t, ht, hnot, piece, _, hattr⟩
      have hta := address_eq_of_attr_eq (hplain t ht) (hplain _ (List.getElem_mem j.isLt))
        hattr.symm
      rcases List.getElem_of_mem ht with ⟨k, hk, rfl⟩
      have hkj : k = j := eq_of_address_eq haddresses hk j.isLt hta
      subst hkj
      have hi : late rs[i] := hlate
      have hj : ¬late rs[j] := hnot
      unfold rank
      rw [if_neg hj, if_pos hi]
      omega

/-- Linked resources whose promises are kept are closed. -/
theorem closed_of_linked (haddresses : (rs.map address).Nodup) (hplain : ∀ r ∈ rs, r.Addressable)
    (hlinked : LinkedAfter late promised [] rs)
    (hkept : ∀ ref, promised ref →
      ∃ t ∈ rs, ¬late t ∧ ∃ part : String, part ≠ "" ∧ ref = t.attr part) : Closed rs := by
  refine ⟨?_, ?_, ?_⟩
  · rintro before r after rfl address ha
    rcases hlinked.linked.dependencies address ha with ⟨t, ht, hta, _⟩
    exact ⟨t, by simpa using ht, hta⟩
  · intro r hr ref href
    -- before the resource or promised, what is referred to is in the list
    have hthere : ∃ t ∈ rs, ∃ part : String, part ≠ "" ∧ ref = t.attr part := by
      rcases List.getElem_of_mem hr with ⟨i, hi, rfl⟩
      rcases (hlinked.getElem hi).references ref href with ⟨t, ht, hattr, _⟩ | ⟨_, hpromise⟩
      · exact ⟨t, List.mem_of_mem_take ht, hattr⟩
      · rcases hkept ref hpromise with ⟨t, ht, _, hattr⟩
        exact ⟨t, ht, hattr⟩
    rcases hthere with ⟨t, ht, part, hpart, rfl⟩
    rcases List.getElem_of_mem ht with ⟨i, hi, rfl⟩
    refine ⟨⟨i, hi⟩, ⟨part, hpart, rfl⟩, ?_⟩
    rintro ⟨j, hj⟩ ⟨piece, _, hattr⟩
    have hji := address_eq_of_attr_eq (hplain _ (List.getElem_mem hi))
      (hplain _ (List.getElem_mem hj)) hattr
    exact Fin.ext (eq_of_address_eq haddresses hj hi hji.symm)
  · intro i hcycle
    -- along a path the rank goes down, so no path returns to where it began
    have hdown : ∀ {j}, Relation.TransGen
        (fun i j : Fin rs.length => rs[i].PointsTo rs[j]) i j →
          rank late rs j < rank late rs i := by
      intro j hpath
      induction hpath with
      | single hedge => exact rank_lt_of_pointsTo haddresses hplain hlinked hkept hedge
      | tail _ hedge ih =>
          exact Nat.lt_trans (rank_lt_of_pointsTo haddresses hplain hlinked hkept hedge) ih
    exact Nat.lt_irrefl _ (hdown hcycle)

end
end Resource
end InfraGraph
