/-!
# OrderedSet — strictly ascending lists

Grants, their patterns and the paths of an API are sets whose order of listing is fixed by the
order of their elements.  A set is the strictly ascending list of its elements, so it has one
representation only:

* `OrderedSet α` — a list in which every element is below all later ones;
* `OrderedSet.insert` — put an element at its place, once;
* `OrderedSet.mem_insert`, `OrderedSet.mem_ofList` — what the operations contain;
* `OrderedSet.ext` — two sets with the same elements are equal.
-/

namespace InfraGraph

variable {α : Type} [Ord α]

/-! ## Ascending lists -/

/-- Each element is below all later ones. -/
def Ascending (xs : List α) : Prop := xs.Pairwise fun a b => compare a b = .lt

/-- Put `x` before the first larger element; an equal element keeps its place. -/
def insertAscending (x : α) : List α → List α
  | [] => [x]
  | y :: ys =>
      match compare x y with
      | .lt => x :: y :: ys
      | .eq => y :: ys
      | .gt => y :: insertAscending x ys

/-- Putting an element in adds it and nothing else. -/
theorem mem_insertAscending [Std.LawfulEqOrd α] {x a : α} {xs : List α} :
    a ∈ insertAscending x xs ↔ a = x ∨ a ∈ xs := by
  induction xs with
  | nil => simp [insertAscending]
  | cons y ys ih =>
      unfold insertAscending
      split
      · simp
      · next h =>
        have e : x = y := Std.LawfulEqCmp.eq_of_compare h
        subst e
        simp
      · simp [ih]
        constructor
        · rintro (h | h | h) <;> simp [h]
        · rintro (h | h | h) <;> simp [h]

/-- Elements are put in where the order wants them. -/
theorem ascending_insertAscending [Std.TransOrd α] [Std.LawfulEqOrd α] {x : α} {xs : List α}
    (h : Ascending xs) : Ascending (insertAscending x xs) := by
  induction xs with
  | nil => simp [insertAscending, Ascending]
  | cons y ys ih =>
      have hy : ∀ a ∈ ys, compare y a = .lt := (List.pairwise_cons.mp h).1
      have hys : Ascending ys := (List.pairwise_cons.mp h).2
      unfold insertAscending
      split
      · next hlt =>
        refine List.pairwise_cons.mpr ⟨?_, h⟩
        intro a ha
        rcases List.mem_cons.mp ha with rfl | ha
        · exact hlt
        · exact Std.TransCmp.lt_trans hlt (hy a ha)
      · exact h
      · next hgt =>
        refine List.pairwise_cons.mpr ⟨?_, ih hys⟩
        intro a ha
        rcases mem_insertAscending.mp ha with rfl | ha
        · exact Std.OrientedCmp.lt_of_gt hgt
        · exact hy a ha

/-- Ascending lists with the same elements are equal. -/
theorem Ascending.eq_of_mem_iff [Std.TransOrd α] {xs ys : List α} (hx : Ascending xs)
    (hy : Ascending ys) (h : ∀ a, a ∈ xs ↔ a ∈ ys) : xs = ys := by
  induction xs generalizing ys with
  | nil =>
      cases ys with
      | nil => rfl
      | cons y ys => exact absurd ((h y).mpr (by simp)) (by simp)
  | cons x xs ih =>
      cases ys with
      | nil => exact absurd ((h x).mp (by simp)) (by simp)
      | cons y ys =>
          have hx1 := (List.pairwise_cons.mp hx).1
          have hy1 := (List.pairwise_cons.mp hy).1
          have irrefl : ∀ a : α, compare a a ≠ .lt := fun a h => by
            simp at h
          have exy : x = y := by
            rcases List.mem_cons.mp ((h x).mp (by simp)) with e | hxy
            · exact e
            · rcases List.mem_cons.mp ((h y).mpr (by simp)) with e | hyx
              · exact e.symm
              · exact absurd (Std.TransCmp.lt_trans (hy1 x hxy) (hx1 y hyx)) (irrefl y)
          subst exy
          congr 1
          refine ih (List.pairwise_cons.mp hx).2 (List.pairwise_cons.mp hy).2 fun a => ?_
          constructor
          · intro ha
            rcases List.mem_cons.mp ((h a).mp (List.mem_cons_of_mem _ ha)) with e | ha'
            · exact absurd (e ▸ hx1 a ha) (irrefl x)
            · exact ha'
          · intro ha
            rcases List.mem_cons.mp ((h a).mpr (List.mem_cons_of_mem _ ha)) with e | ha'
            · exact absurd (e ▸ hy1 a ha) (irrefl x)
            · exact ha'

/-! ## The set -/

/-- A set, listed in ascending order. -/
structure OrderedSet (α : Type) [Ord α] where
  toList : List α
  ascending : Ascending toList

namespace OrderedSet

theorem toList_injective {s t : OrderedSet α} (h : s.toList = t.toList) : s = t := by
  cases s
  cases t
  cases h
  rfl

instance [DecidableEq α] : DecidableEq (OrderedSet α) := fun s t =>
  if h : s.toList = t.toList then .isTrue (toList_injective h)
  else .isFalse fun e => h (congrArg toList e)

instance : Membership α (OrderedSet α) := ⟨fun s a => a ∈ s.toList⟩

theorem mem_def {s : OrderedSet α} {a : α} : a ∈ s ↔ a ∈ s.toList := Iff.rfl

/-- An ascending list has no element twice. -/
theorem nodup_toList [Std.LawfulEqOrd α] (s : OrderedSet α) : s.toList.Nodup := by
  refine s.ascending.imp ?_
  rintro a b hlt rfl
  have hself : compare a a = .eq := Std.ReflCmp.compare_self
  rw [hself] at hlt
  cases hlt

/-- Two sets with the same elements are equal. -/
@[ext]
theorem ext [Std.TransOrd α] {s t : OrderedSet α} (h : ∀ a, a ∈ s ↔ a ∈ t) : s = t :=
  toList_injective (s.ascending.eq_of_mem_iff t.ascending h)

def empty : OrderedSet α := ⟨[], List.Pairwise.nil⟩

instance : EmptyCollection (OrderedSet α) := ⟨empty⟩

instance : Inhabited (OrderedSet α) := ⟨empty⟩

def singleton (a : α) : OrderedSet α := ⟨[a], by simp [Ascending]⟩

def size (s : OrderedSet α) : Nat := s.toList.length

def isEmpty (s : OrderedSet α) : Bool := s.toList.isEmpty

@[simp]
theorem not_mem_empty {a : α} : ¬a ∈ (empty : OrderedSet α) := List.not_mem_nil

@[simp]
theorem mem_singleton {a b : α} : a ∈ singleton b ↔ a = b := List.mem_singleton

/-! ### Operations that need a lawful order -/

variable [Std.TransOrd α] [Std.LawfulEqOrd α]

def insert (s : OrderedSet α) (a : α) : OrderedSet α :=
  ⟨insertAscending a s.toList, ascending_insertAscending s.ascending⟩

def insertAll (s : OrderedSet α) (xs : List α) : OrderedSet α := xs.foldl insert s

def ofList (xs : List α) : OrderedSet α := empty.insertAll xs

@[simp]
theorem mem_insert {s : OrderedSet α} {a b : α} : a ∈ s.insert b ↔ a = b ∨ a ∈ s :=
  mem_insertAscending

@[simp]
theorem mem_insertAll {s : OrderedSet α} {xs : List α} {a : α} :
    a ∈ s.insertAll xs ↔ a ∈ xs ∨ a ∈ s := by
  induction xs generalizing s with
  | nil => simp [insertAll]
  | cons x xs ih =>
      have step : s.insertAll (x :: xs) = (s.insert x).insertAll xs := rfl
      rw [step, ih, mem_insert, List.mem_cons, or_assoc, or_left_comm]

@[simp]
theorem mem_ofList {xs : List α} {a : α} : a ∈ ofList xs ↔ a ∈ xs := by
  simp [ofList]

end OrderedSet
end InfraGraph
