/-!
# Json — the tree of a JSON text

Members of an object keep the order of the text, repeated ones included, so that a reader can
report the first fault and a writer can repeat the order it was given.

* `Json` — the tree;
* `Json.sorted` — the form without order: members by key, the last of repeated ones.
-/

namespace InfraGraph

inductive Json where
  | null
  | bool (value : Bool)
  | int (value : Int)
  | float (value : Float)
  | str (value : String)
  | arr (items : List Json)
  | obj (members : List (String × Json))

namespace Json

instance : Inhabited Json := ⟨null⟩

/-- A text, or null where there is none. -/
def optional : Option String → Json
  | none => null
  | some s => str s

/-! ## Members -/

/-- Put a member at the place of its key; a member of the same key is replaced. -/
def putMember (key : String) (value : Json) : List (String × Json) → List (String × Json)
  | [] => [(key, value)]
  | m :: rest =>
      match compare key m.1 with
      | .lt => (key, value) :: m :: rest
      | .eq => (key, value) :: rest
      | .gt => m :: putMember key value rest

/-- Members by key, the last of repeated ones. -/
def sortMembers (members : List (String × Json)) : List (String × Json) :=
  members.foldl (fun sorted m => putMember m.1 m.2 sorted) []

mutual

/-- The value with the members of every object by key, the last of repeated ones. -/
def sorted : Json → Json
  | arr items => arr (sortedItems items)
  | obj members => obj (sortMembers (sortedValues members))
  | null => null
  | bool b => bool b
  | int n => int n
  | float x => float x
  | str s => str s

def sortedItems : List Json → List Json
  | [] => []
  | v :: rest => sorted v :: sortedItems rest

def sortedValues : List (String × Json) → List (String × Json)
  | [] => []
  | m :: rest => (m.1, sorted m.2) :: sortedValues rest

end

end Json
end InfraGraph
