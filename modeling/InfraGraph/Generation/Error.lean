import InfraGraph.Access.Declaration
import InfraGraph.Entity

/-!
# Error — why a generation pass is abandoned

Every error ends the pass; a partial graph is never emitted.

* `StuckItem` — work that never became ready;
* `GenerationError` — what can go wrong, and `GenerationError.message`, how it is worded.
-/

namespace InfraGraph

/-- Work of a producer for an entity that never became ready. -/
structure StuckItem where
  producer : String
  entity : EntityId
deriving DecidableEq

namespace StuckItem

def text (i : StuckItem) : String := i.producer ++ " <- " ++ i.entity.text

end StuckItem

inductive GenerationError where
  /-- An output was read that no one has registered. -/
  | missingOutput (producer : String) (entity : EntityId)
  /-- A producer has already registered an output for the entity. -/
  | duplicateOutput (producer : String) (entity : EntityId)
  /-- A registered output is not of the sort that the producer's readers expect. -/
  | outputTypeMismatch (producer : String) (entity : EntityId)
  /-- A sweep over the pending work completed none of it. -/
  | stalled (items : List StuckItem)
  /-- A resource with the same address has been emitted before. -/
  | duplicateResource (address producer : String) (entity : EntityId)
  /-- A declaration names a kind of resource that the platform lacks. -/
  | invalidDeclaration (kind : DeclaredKind) (platform : Platform) (location : String)
  /-- A producer was handed an entity it does not generate for. -/
  | unexpectedEntity (producer : String) (entity : EntityId)
  /-- An entity refers to a lambda that the schema lacks. -/
  | unknownLambda (entity : EntityId) (lambda : String)
  /-- An output has no JSON form. -/
  | encode (producer reason : String)
deriving DecidableEq

namespace GenerationError

def message : GenerationError → String
  | missingOutput producer entity =>
      "output of " ++ producer ++ " for '" ++ entity.text ++ "' requested before it was registered"
  | duplicateOutput producer entity =>
      "output of " ++ producer ++ " for '" ++ entity.text ++ "' registered twice"
  | outputTypeMismatch producer entity =>
      "output of " ++ producer ++ " for '" ++ entity.text ++ "' has an unexpected type"
  | stalled items =>
      "generation stalled, " ++ toString items.length ++ " item(s) can never run: " ++
        ", ".intercalate (items.map StuckItem.text)
  | duplicateResource address producer entity =>
      "resource " ++ address ++ " emitted by " ++ producer ++ " for '" ++ entity.text ++
        "' already exists"
  | invalidDeclaration kind platform location =>
      location ++ ": " ++ kind.text ++ " permission is not supported on " ++ platform.text
  | unexpectedEntity producer entity =>
      "producer " ++ producer ++ " cannot generate '" ++ entity.text ++ "'"
  | unknownLambda entity lambda =>
      "'" ++ entity.text ++ "' references unknown lambda '" ++ lambda ++ "'"
  | encode producer reason => "cannot encode output of " ++ producer ++ ": " ++ reason

end GenerationError
end InfraGraph
