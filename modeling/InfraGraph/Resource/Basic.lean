import InfraGraph.Collection.OrderedMap

/-!
# Resource — an infrastructure object

A resource is a named, typed object with ordered fields.  Resources refer to one another through
symbolic addresses only: `kind.name`, followed by an attribute where a value is meant.

* `FieldValue` — the value of a field, nested to any depth;
* `Resource` — kind, name, fields and what must exist before;
* `Resource.address`, `Resource.attr` — how others refer to it.
-/

namespace InfraGraph

/-! ## Field values -/

inductive FieldValue where
  | text (value : String)
  | number (value : Int64)
  | bool (value : Bool)
  /-- An attribute of another resource. -/
  | ref (address : String)
  /-- An expression evaluated by the provisioning tool. -/
  | expr (expression : String)
  | map (entries : List (String × FieldValue))
  | list (items : List FieldValue)

namespace FieldValue

/-! ### Equality -/

mutual

def decideEq : (a b : FieldValue) → Decidable (a = b)
  | text s, b => by
      cases b with
      | text t => exact decidable_of_iff (s = t) (by simp)
      | _ => exact .isFalse (by simp)
  | number n, b => by
      cases b with
      | number m => exact decidable_of_iff (n = m) (by simp)
      | _ => exact .isFalse (by simp)
  | bool x, b => by
      cases b with
      | bool y => exact decidable_of_iff (x = y) (by simp)
      | _ => exact .isFalse (by simp)
  | ref s, b => by
      cases b with
      | ref t => exact decidable_of_iff (s = t) (by simp)
      | _ => exact .isFalse (by simp)
  | expr s, b => by
      cases b with
      | expr t => exact decidable_of_iff (s = t) (by simp)
      | _ => exact .isFalse (by simp)
  | map xs, b => by
      cases b with
      | map ys =>
          have := decideEqEntries xs ys
          exact decidable_of_iff (xs = ys) (by simp)
      | _ => exact .isFalse (by simp)
  | list xs, b => by
      cases b with
      | list ys =>
          have := decideEqItems xs ys
          exact decidable_of_iff (xs = ys) (by simp)
      | _ => exact .isFalse (by simp)

def decideEqEntries : (xs ys : List (String × FieldValue)) → Decidable (xs = ys)
  | [], [] => .isTrue rfl
  | [], _ :: _ => .isFalse (by simp)
  | _ :: _, [] => .isFalse (by simp)
  | (k, v) :: xs, (l, w) :: ys =>
      have := decideEq v w
      have := decideEqEntries xs ys
      decidable_of_iff ((k = l ∧ v = w) ∧ xs = ys) (by simp)

def decideEqItems : (xs ys : List FieldValue) → Decidable (xs = ys)
  | [], [] => .isTrue rfl
  | [], _ :: _ => .isFalse (by simp)
  | _ :: _, [] => .isFalse (by simp)
  | v :: xs, w :: ys =>
      have := decideEq v w
      have := decideEqItems xs ys
      decidable_of_iff (v = w ∧ xs = ys) (by simp)

end

instance : DecidableEq FieldValue := decideEq

/-! ### Building and reading -/

/-- Map of the pairs, the last value of a repeated key standing at its first position. -/
def ofPairs (pairs : List (String × FieldValue)) : FieldValue :=
  map (OrderedMap.ofList pairs).entries

/-- Number of a 32-bit quantity. -/
def natural (n : UInt32) : FieldValue := number (Int64.ofNat n.toNat)

def asText? : FieldValue → Option String
  | text s => some s
  | _ => none

end FieldValue

/-! ## Resources -/

structure Resource where
  /-- Type in the resource language. -/
  kind : String
  /-- Identifier, unique for its kind. -/
  name : String
  fields : OrderedMap FieldValue
  /-- Addresses of resources that must be created before. -/
  dependsOn : List String
deriving DecidableEq

namespace Resource

def ofFields (kind name : String) (fields : List (String × FieldValue)) : Resource :=
  ⟨kind, name, .ofList fields, []⟩

def after (r : Resource) (addresses : List String) : Resource :=
  { r with dependsOn := r.dependsOn ++ addresses }

def address (r : Resource) : String := r.kind ++ "." ++ r.name

def attr (r : Resource) (part : String) : String := r.address ++ "." ++ part

end Resource
end InfraGraph
