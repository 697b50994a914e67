import InfraGraph.Access.Grant
import InfraGraph.Json.Printer

/-!
# Policy — grants as documents of a platform

On AWS a set of grants becomes a policy document with one statement for each grant, on Azure a
list of role assignments with one for each pattern.

* `Statement`, `PolicyDocument.ofGrants`, `PolicyDocument.text` — the AWS document and its text;
* `RoleAssignment`, `RoleAssignment.ofGrants` — the Azure assignments.
-/

namespace InfraGraph

/-! ## AWS -/

/-- A statement allows every one of its actions on every one of its resources. -/
structure Statement where
  actions : List String
  resources : List String
deriving DecidableEq

structure PolicyDocument where
  statements : List Statement
deriving DecidableEq

namespace PolicyDocument

/-- Statement of a grant; none for Azure grants and for levels without actions. -/
def statement? (region account : String) (grant : Grant) : Option Statement :=
  match grant.service with
  | .azure _ => none
  | .aws service =>
      let actions := (service.actions grant.level).toList
      if actions.isEmpty then none
      else some ⟨actions, grant.patterns.toList.map fun p => service.arn region account ++ ":" ++ p⟩

/-- One statement for each AWS grant that has actions. -/
def ofGrants (grants : OrderedSet Grant) (region account : String) : PolicyDocument :=
  ⟨grants.toList.filterMap (statement? region account)⟩

def statementJson (s : Statement) : Json :=
  .obj [("Effect", .str "Allow"), ("Action", .arr (s.actions.map .str)),
    ("Resource", .arr (s.resources.map .str))]

def toJson (d : PolicyDocument) : Json :=
  .obj [("Version", .str "2012-10-17"), ("Statement", .arr (d.statements.map statementJson))]

def text (d : PolicyDocument) : String := d.toJson.compact

end PolicyDocument

/-! ## Azure -/

/-- A role assigned on a scope. -/
structure RoleAssignment where
  role : String
  scope : String
deriving DecidableEq

namespace RoleAssignment

/-- Order of assignments: by role, then scope. -/
def order : RoleAssignment → RoleAssignment → Ordering :=
  compareLex (compareOn role) (compareOn scope)

instance : Ord RoleAssignment := ⟨order⟩

instance : Std.TransOrd RoleAssignment :=
  inferInstanceAs (Std.TransCmp (compareLex (compareOn role) (compareOn scope)))

instance : Std.LawfulEqOrd RoleAssignment where
  eq_of_compare {a b} h := by
    have h' : (compareOn role a b).then (compareOn scope a b) = .eq := h
    rw [Ordering.then_eq_eq] at h'
    have e₁ : a.role = b.role := Std.LawfulEqOrd.eq_of_compare h'.1
    have e₂ : a.scope = b.scope := Std.LawfulEqOrd.eq_of_compare h'.2
    cases a
    cases b
    simp_all

/-- Assignments of one grant; none for AWS grants. -/
def ofGrant (subscription : String) (grant : Grant) : List RoleAssignment :=
  match grant.service with
  | .aws _ => []
  | .azure service =>
      grant.patterns.toList.map fun p => ⟨service.role grant.level, service.scope p subscription⟩

/-- Assignments of every Azure grant, one for each pattern. -/
def ofGrants (grants : OrderedSet Grant) (subscription : String) : OrderedSet RoleAssignment :=
  .ofList (grants.toList.flatMap (ofGrant subscription))

end RoleAssignment
end InfraGraph
