import InfraGraph.Resource.Basic

/-!
# References inside resources

* `FieldValue.refs`, `Resource.refs` — the references of a value at any depth, and of a resource;
* `FieldValue.mem_refs_map_iff` — where a reference in a map stands;
* `FieldValue.forall_refs_ofPairs`, `Resource.forall_refs_ofFields` — what is built refers to
  nothing that it was not built from.
-/

namespace InfraGraph
namespace FieldValue

mutual

def refs : FieldValue → List String
  | text _ => []
  | number _ => []
  | bool _ => []
  | ref address => [address]
  | expr _ => []
  | map entries => refsOfEntries entries
  | list items => refsOfItems items

def refsOfEntries : List (String × FieldValue) → List String
  | [] => []
  | (_, value) :: rest => refs value ++ refsOfEntries rest

def refsOfItems : List FieldValue → List String
  | [] => []
  | value :: rest => refs value ++ refsOfItems rest

end

variable {address : String}

theorem mem_refs_map_iff {entries : List (String × FieldValue)} :
    address ∈ (map entries).refs ↔ ∃ entry ∈ entries, address ∈ entry.2.refs := by
  rw [refs]
  induction entries with
  | nil => simp [refsOfEntries]
  | cons entry rest ih =>
      rcases entry with ⟨key, value⟩
      rw [refsOfEntries, List.mem_append, ih]
      simp

/-- What holds of the references of all pairs holds of those of their map. -/
theorem forall_refs_ofPairs {pairs : List (String × FieldValue)} {P : String → Prop}
    (h : ∀ pair ∈ pairs, ∀ ref ∈ pair.2.refs, P ref) : ∀ ref ∈ (ofPairs pairs).refs, P ref := by
  intro ref href
  rcases mem_refs_map_iff.mp href with ⟨entry, hentry, hmem⟩
  exact h entry (OrderedMap.mem_of_mem_ofList hentry) ref hmem

end FieldValue

namespace Resource

def refs (r : Resource) : List String := r.fields.entries.flatMap fun field => field.2.refs

/-- What holds of the references of all fields holds of those of the resource. -/
theorem forall_refs_ofFields {kind name : String} {fields : List (String × FieldValue)}
    {P : String → Prop} (h : ∀ field ∈ fields, ∀ ref ∈ field.2.refs, P ref) :
    ∀ ref ∈ (ofFields kind name fields).refs, P ref := by
  intro ref href
  rcases List.mem_flatMap.mp href with ⟨field, hfield, hmem⟩
  exact h field (OrderedMap.mem_of_mem_ofList hfield) ref hmem

@[simp]
theorem refs_after (r : Resource) (addresses : List String) :
    (r.after addresses).refs = r.refs := rfl

@[simp]
theorem dependsOn_ofFields (kind name : String) (fields : List (String × FieldValue)) :
    (ofFields kind name fields).dependsOn = [] := rfl

theorem dependsOn_after (r : Resource) (addresses : List String) :
    (r.after addresses).dependsOn = r.dependsOn ++ addresses := rfl

@[simp]
theorem address_after (r : Resource) (addresses : List String) :
    (r.after addresses).address = r.address := rfl

end Resource
end InfraGraph
