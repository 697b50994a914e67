import InfraGraph.Proofs.Json.Text

/-!
# Values with members left out

A writer may leave out members that hold what a reader takes them for when they are missing.  Which
members are left out is told by their paths, and what they are taken for by a table of defaults that
is built along the form of the value.  Main statements:

* `Json.without` — a value without the chosen members;
* `Json.Defaults`, `Json.Defaults.record`, `Json.Defaults.each` — tables of defaults;
* `Json.Defaults.Permits` — every chosen member holds its default;
* `Json.isExact_without`, `Json.without_none` — what leaving out members does not change.
-/

namespace InfraGraph
namespace Json

open Decode

variable {α : Type}

/-- What is told of paths, for the paths below a step. -/
def beneath (f : List Step → α) (step : Step) : List Step → α := fun path => f (step :: path)

/-! ## Leaving out members -/

mutual

/-- The value without the members with chosen paths. -/
def without (chosen : List Step → Bool) : Json → Json
  | arr items => arr (itemsWithout chosen 0 items)
  | obj members => obj (membersWithout chosen members)
  | null => null
  | bool b => bool b
  | int n => int n
  | float x => float x
  | str s => str s

/-- The items, counted from `n`, each without members with chosen paths. -/
def itemsWithout (chosen : List Step → Bool) (n : Nat) : List Json → List Json
  | [] => []
  | v :: rest => without (beneath chosen (.index n)) v :: itemsWithout chosen (n + 1) rest

/-- The members whose paths are not chosen, each without members with chosen paths. -/
def membersWithout (chosen : List Step → Bool) : List (String × Json) → List (String × Json)
  | [] => []
  | m :: rest =>
      if chosen [.key m.1] then membersWithout chosen rest
      else (m.1, without (beneath chosen (.key m.1)) m.2) :: membersWithout chosen rest

end

variable {chosen : List Step → Bool} {members : List (String × Json)} {name : String} {v w : Json}

/-- Members that are left are those of the value, with their own parts left out. -/
theorem mem_membersWithout {m : String × Json} (h : m ∈ membersWithout chosen members) :
    ∃ v, (m.1, v) ∈ members ∧ chosen [.key m.1] = false ∧
      m.2 = v.without (beneath chosen (.key m.1)) := by
  induction members with
  | nil => cases h
  | cons first rest ih =>
      unfold membersWithout at h
      split at h
      · rcases ih h with ⟨v, hv, hchosen, he⟩
        exact ⟨v, List.mem_cons_of_mem _ hv, hchosen, he⟩
      · next hfirst =>
        rcases List.mem_cons.mp h with rfl | h
        · exact ⟨first.2, List.mem_cons_self, by simpa using hfirst, rfl⟩
        · rcases ih h with ⟨v, hv, hchosen, he⟩
          exact ⟨v, List.mem_cons_of_mem _ hv, hchosen, he⟩

/-- A member that is not chosen is left. -/
theorem mem_membersWithout_of_mem (h : (name, v) ∈ members) (hchosen : chosen [.key name] = false) :
    (name, v.without (beneath chosen (.key name))) ∈ membersWithout chosen members := by
  induction members with
  | nil => cases h
  | cons first rest ih =>
      unfold membersWithout
      rcases List.mem_cons.mp h with rfl | h
      · rw [if_neg (by simp [hchosen])]
        exact List.mem_cons_self
      · split
        · exact ih h
        · exact List.mem_cons_of_mem _ (ih h)

/-- Leaving out keeps the order of the keys. -/
theorem keys_membersWithout_sublist (chosen : List Step → Bool) (members : List (String × Json)) :
    ((membersWithout chosen members).map Prod.fst).Sublist (members.map Prod.fst) := by
  induction members with
  | nil => exact List.Sublist.refl _
  | cons first rest ih =>
      unfold membersWithout
      split
      · exact ih.cons _
      · exact ih.cons_cons _

theorem membersWithout_append (more : List (String × Json)) :
    membersWithout chosen (members ++ more) =
      membersWithout chosen members ++ membersWithout chosen more := by
  induction members with
  | nil => rfl
  | cons m rest ih =>
      rw [List.cons_append, membersWithout, membersWithout, ih]
      split <;> rfl

/-- Where no member is chosen, all of them are there. -/
theorem membersWithout_eq_map (h : ∀ m ∈ members, chosen [.key m.1] = false) :
    membersWithout chosen members =
      members.map fun m => (m.1, m.2.without (beneath chosen (.key m.1))) := by
  induction members with
  | nil => rfl
  | cons m rest ih =>
      rcases List.forall_mem_cons.mp h with ⟨hfirst, hrest⟩
      rw [membersWithout, if_neg (by simp [hfirst]), ih hrest, List.map_cons]

mutual

/-- Without any chosen path nothing is left out. -/
theorem without_none : ∀ v : Json, v.without (fun _ => false) = v
  | null | bool _ | int _ | float _ | str _ => rfl
  | arr items => congrArg arr (itemsWithout_none 0 items)
  | obj members => congrArg obj (membersWithout_none members)

theorem itemsWithout_none (n : Nat) : ∀ items : List Json,
    itemsWithout (fun _ => false) n items = items
  | [] => rfl
  | v :: rest => by
      have hitem : v.without (beneath (fun _ => false) (.index n)) = v := without_none v
      rw [itemsWithout, hitem, itemsWithout_none (n + 1) rest]

/-- Where nothing is chosen, nothing is left out. -/
theorem membersWithout_none : ∀ members : List (String × Json),
    membersWithout (fun _ => false) members = members
  | [] => rfl
  | m :: rest => by
      have hvalue : m.2.without (beneath (fun _ => false) (.key m.1)) = m.2 := without_none m.2
      rw [membersWithout, if_neg (by simp), hvalue, membersWithout_none rest]

end

@[simp]
theorem without_str (chosen : List Step → Bool) (s : String) : (str s).without chosen = str s := rfl

@[simp]
theorem without_optional (chosen : List Step → Bool) (o : Option String) :
    (optional o).without chosen = optional o := by
  cases o <;> rfl

mutual

/-- Leaving out members leaves the numbers as they are. -/
theorem isExact_without : ∀ (v : Json) (chosen : List Step → Bool), v.IsExact →
    (v.without chosen).IsExact
  | null, _, h | bool _, _, h | int _, _, h | float _, _, h | str _, _, h => h
  | arr items, chosen, h => itemsExact_without items chosen 0 h
  | obj members, chosen, h => membersExact_without members chosen h

theorem itemsExact_without : ∀ (items : List Json) (chosen : List Step → Bool) (n : Nat),
    ItemsExact items → ItemsExact (itemsWithout chosen n items)
  | [], _, _, _ => trivial
  | v :: rest, chosen, n, h =>
      ⟨isExact_without v _ h.1, itemsExact_without rest chosen (n + 1) h.2⟩

/-- Numbers stay as they are where members are left out. -/
theorem membersExact_without : ∀ (members : List (String × Json)) (chosen : List Step → Bool),
    MembersExact members → MembersExact (membersWithout chosen members)
  | [], _, _ => trivial
  | m :: rest, chosen, h => by
      unfold membersWithout
      split
      · exact membersExact_without rest chosen h.2
      · exact ⟨isExact_without m.2 _ h.1, membersExact_without rest chosen h.2⟩

end

/-! ## Defaults -/

/-- The part of a value that a step leads to. -/
def child? : Step → Json → Option Json
  | .key name, obj members => Entries.get? name members
  | .index n, arr items => items[n]?
  | _, _ => none

/-- Keys are distinct, so a step leads to the member of its key. -/
theorem child?_of_mem (hkeys : (members.map Prod.fst).Nodup) (h : (name, v) ∈ members) :
    child? (.key name) (obj members) = some v :=
  Entries.get?_eq_some_of_mem hkeys h

/-- The part of a value with a path. -/
def at? : List Step → Json → Option Json
  | [], v => some v
  | step :: rest, v => (v.child? step).bind (at? rest)

/-- What members are taken for when they are missing, by their paths. -/
abbrev Defaults := List Step → Option Json

namespace Defaults

def none : Defaults := fun _ => .none

/-- Some members of an object may be missing: those with a default.  Members inside of them have
defaults of their own. -/
def record (fields : List (String × Json × Defaults)) : Defaults
  | [.key name] => (Entries.get? name fields).map Prod.fst
  | .key name :: rest => (Entries.get? name fields).bind fun field => field.2 rest
  | _ => .none

/-- The parts of a value have defaults inside of them. -/
def each (defaults : Defaults) : Defaults
  | _ :: step :: rest => defaults (step :: rest)
  | _ => .none

/-- Every chosen member that is there holds its default. -/
def Permits (defaults : Defaults) (chosen : List Step → Bool) (v : Json) : Prop :=
  ∀ step path w, chosen (step :: path) = true → v.at? (step :: path) = some w →
    defaults (step :: path) = some w

variable {defaults : Defaults} {step : Step}

/-- Nothing chosen is always permitted. -/
theorem permits_none (defaults : Defaults) (v : Json) : defaults.Permits (fun _ => false) v :=
  fun _ _ _ h => absurd h (by simp)

/-- Some paths may be chosen where what they lead to are the defaults. -/
theorem permits_of_forall {paths : List (List Step)}
    (h : ∀ path ∈ paths, v.at? path = defaults path) :
    defaults.Permits (fun path => decide (path ∈ paths)) v := by
  intro step path w hchosen hat
  rw [← h _ (of_decide_eq_true hchosen), hat]

/-- A chosen member that is there holds its default. -/
theorem Permits.eq_some (h : defaults.Permits chosen v) (hchild : v.child? step = some w)
    (hchosen : chosen [step] = true) : defaults [step] = some w :=
  h step [] w hchosen (by simp [at?, hchild])

/-- So do those below it, by the defaults that count there. -/
theorem Permits.beneath (h : defaults.Permits chosen v) (hchild : v.child? step = some w)
    {inner : Defaults}
    (hinner : ∀ next rest, defaults (step :: next :: rest) = inner (next :: rest)) :
    inner.Permits (beneath chosen step) w := by
  intro next rest x hchosen hat
  rw [← hinner]
  exact h step (next :: rest) x hchosen (by rw [at?, hchild]; exact hat)

end Defaults
end Json
end InfraGraph
