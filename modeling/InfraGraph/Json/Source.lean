import InfraGraph.Decode.Failure
import InfraGraph.Json.Basic

/-!
# Source — what a JSON text holds

A text is read as far as it is well formed, and a value that is well formed may still have no
meaning, such as a number beyond the largest double.  Both are faults only for those who ask for the
value, so they are kept in the tree.

* `Json.Source` — the tree of a text;
* `Source.isWhole` — whether it has been read to its end;
* `Source.ofJson` — the tree of a text that holds a given value.
-/

namespace InfraGraph
namespace Json

inductive Source where
  | null
  | bool (value : Bool)
  | int (value : Int)
  | float (value : Float)
  | str (value : String)
  | arr (items : List Source)
  /-- An object; a key may have no meaning, either. -/
  | obj (members : List (Except Decode.Cause String × Source))
  /-- A value without a meaning. -/
  | fault (cause : Decode.Cause)

namespace Source

instance : Inhabited Source := ⟨null⟩

/-- The place where a text ceases to be well formed. -/
def broken : Source := fault .malformed

/-- A member at which a text ceases to be well formed. -/
def brokenMember : Except Decode.Cause String × Source := (.error .malformed, broken)

mutual

def isWhole : Source → Bool
  | arr items => itemsWhole items
  | obj members => membersWhole members
  | fault .malformed => false
  | _ => true

def itemsWhole : List Source → Bool
  | [] => true
  | v :: rest => isWhole v && itemsWhole rest

def membersWhole : List (Except Decode.Cause String × Source) → Bool
  | [] => true
  | m :: rest => isWhole m.2 && membersWhole rest

end

mutual

def ofJson : Json → Source
  | .null => null
  | .bool b => bool b
  | .int n => int n
  | .float x => float x
  | .str s => str s
  | .arr items => arr (ofItems items)
  | .obj members => obj (ofMembers members)

def ofItems : List Json → List Source
  | [] => []
  | v :: rest => ofJson v :: ofItems rest

def ofMembers : List (String × Json) → List (Except Decode.Cause String × Source)
  | [] => []
  | m :: rest => (.ok m.1, ofJson m.2) :: ofMembers rest

end

end Source
end Json
end InfraGraph
