import InfraGraph.Generation.Error

/-!
# Aggregate — the grants of each lambda

A lambda is granted what it declares itself, what every library declares, and the baseline of its
platform.  Grants are collected in a set, so equal ones from different places are one.

* `Declaration.aggregate` — the grants of a list of declarations;
* `Grants`, `Schema.grants` — the grants of every lambda of a schema.
-/

namespace InfraGraph

namespace Declaration

/-- Error of the first declaration of another platform; none if there is no such declaration. -/
def foreign? (platform : Platform) (ds : List Declaration) : Option GenerationError :=
  (ds.find? fun d => d.resource.platform != platform).map fun d =>
    .invalidDeclaration d.resource.kind platform d.location

/-- Grants of the declarations with the baseline of the platform, if all of them are of that
platform. -/
def aggregate (ds : List Declaration) (platform : Platform) :
    Except GenerationError (OrderedSet Grant) :=
  match foreign? platform ds with
  | some e => .error e
  | none => .ok (.ofList (Grant.baseline platform :: ds.flatMap grants))

end Declaration

/-- Grants of lambdas by lambda id. -/
structure Grants where
  byLambda : OrderedMap (OrderedSet Grant)

namespace Grants

/-- Grants of a lambda; none were computed for an unknown id. -/
def of (g : Grants) (lambda : String) : OrderedSet Grant := (g.byLambda.get? lambda).getD .empty

/-- Lambda ids with their grants, in order of the ids. -/
def sorted (g : Grants) : List (String × OrderedSet Grant) :=
  g.byLambda.entries.mergeSort fun a b => compare a.1 b.1 != .gt

end Grants

namespace Schema

/-- Grants of one lambda: its own declarations come before those of the library. -/
def lambdaGrants (s : Schema) (library : List Declaration) (l : Lambda) :
    Except GenerationError (OrderedSet Grant) :=
  Declaration.aggregate (l.permissions ++ library) s.platform

/-- Grants of every lambda, or the error of the first lambda that has one. -/
def grants (s : Schema) (library : List Declaration) : Except GenerationError Grants := do
  let entries ← s.lambdas.entries.mapM fun (id, l) => do
    return (id, ← s.lambdaGrants library l)
  return ⟨.ofList entries⟩

end Schema
end InfraGraph
