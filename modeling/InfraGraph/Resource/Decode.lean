import InfraGraph.Decode.Fields
import InfraGraph.Json.Format
import InfraGraph.Resource.Basic

/-!
# Decode — resources from JSON trees

* `FieldValue.ofView`, `Resource.ofView` — read what `FieldValue.toJson` and `Resource.toJson`
  write; fields and dependencies may be left out.
-/

namespace InfraGraph

open Decode Json

namespace FieldValue

def sortNames : List String := ["text", "number", "bool", "ref", "expr", "map", "list"]

def int64 (v : View) : Decoded Int64 := do
  let n ← v.integer Int64.minValue.toInt Int64.maxValue.toInt "i64"
  return Int64.ofInt n

/-- Fault of a name that is that of no sort. -/
def unknownSort {α : Type} (name : String) : Decoded α :=
  .unplacedFault (.unknownName name sortNames)

mutual

/-- Read a value: an object with one member, whose name is the sort of the value. -/
def ofSource (room : Option Nat) : Source → Decoded FieldValue
  | .obj members => do
      let room ← Source.inside room
      ofMember room members
  | .str s =>
      if sortNames.contains s then .fault (.invalidType .bareName "newtype variant")
      else unknownSort s
  | source => source.noAlternative

def ofMember (room : Option Nat) : List (Except Cause String × Source) → Decoded FieldValue
  | [] => .fault .noAlternative
  | m :: rest => do
      let sort ← Source.keyText m.1
      let value ← ofContent room sort m.2
      Source.oneMember rest
      return value

def ofContent (room : Option Nat) (sort : String) (content : Source) : Decoded FieldValue :=
  match sort with
  | "text" => text <$> View.text ⟨content, room⟩
  | "number" => number <$> int64 ⟨content, room⟩
  | "bool" => bool <$> View.flag ⟨content, room⟩
  | "ref" => ref <$> View.text ⟨content, room⟩
  | "expr" => expr <$> View.text ⟨content, room⟩
  | "map" =>
      match content with
      | .obj members => do
          let room ← Source.inside room
          ofPairs <$> ofMembers room members
      | source => source.mismatch "a map"
  | "list" =>
      match content with
      | .arr items => do
          let room ← Source.inside room
          list <$> ofItems room items
      | source => source.mismatch "a sequence"
  | _ => unknownSort sort

def ofMembers (room : Option Nat) :
    List (Except Cause String × Source) → Decoded (List (String × FieldValue))
  | [] => return []
  | m :: rest => do
      let key ← Source.keyText m.1
      let value ← ofSource room m.2
      return (key, value) :: (← ofMembers room rest)

def ofItems (room : Option Nat) : List Source → Decoded (List FieldValue)
  | [] => return []
  | v :: rest => do
      let value ← ofSource room v
      return value :: (← ofItems room rest)

end

def ofView (v : View) : Decoded FieldValue := ofSource v.room v.source

end FieldValue

namespace Resource

def ofView : View → Decoded Resource :=
  record "ResourceDef" (Resource.mk
    <$> .required "kind" View.text
    <*> .required "name" View.text
    <*> .withDefault "fields" .empty (map FieldValue.ofView)
    <*> .withDefault "depends_on" [] (list View.text))

end Resource
end InfraGraph
