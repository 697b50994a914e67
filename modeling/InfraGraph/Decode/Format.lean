import InfraGraph.Collection.OrderedMap
import InfraGraph.Decode.Failure

/-!
# Format — what decoding asks of a text format

Schemas are read from two formats.  They agree on the structure of what they hold and differ in how
scalars are read, in what stands for an absent value and in how faults are worded.

* `Shape` — what a mapping is expected to be;
* `Format` — the questions a decoder asks of a tree of the format;
* `Decode.optional`, `Decode.list`, `Decode.map` — values that may be absent, lists and maps.
-/

namespace InfraGraph
namespace Decode

structure Member (ν : Type) where
  /-- The key, if it is a text. -/
  key : Decoded String
  /-- Step from the mapping to the value. -/
  step : Step
  value : ν

/-- What a mapping is expected to be. -/
inductive Shape where
  /-- A map with texts of any kind as keys. -/
  | map
  /-- A record with fields. -/
  | record (name : String)
  /-- A choice whose alternative is named by one of its fields. -/
  | tagged (name : String)

namespace Shape

def expected : Shape → String
  | map => "a map"
  | record name => "struct " ++ name
  | tagged name => "internally tagged enum " ++ name

/-- Name in messages of the field that tells which record a tagged choice holds. -/
def expectedTag : String := "variant identifier"

def expectedKey : Shape → String
  | map => "a string"
  | _ => "field identifier"

end Shape

/-- Questions a decoder asks of a tree. -/
class Format (ν : Type) where
  /-- The text of a tree. -/
  text : ν → Decoded String
  /-- The truth value of a tree. -/
  flag : ν → Decoded Bool
  /-- The 32-bit natural number of a tree. -/
  natural32 : ν → Decoded UInt32
  /-- The tree, unless it stands for an absent value. -/
  present : ν → Decoded (Option ν)
  /-- The items of a sequence. -/
  elements : ν → Decoded (List ν)
  /-- The entries of a mapping, given what it is expected to be. -/
  members : Shape → ν → Decoded (List (Member ν))
  /-- The items of a tree that can stand for a record by giving its fields in order. -/
  tuple? : ν → Option (Decoded (List ν))
  /-- One of several names. -/
  name : {α : Type} → List (String × α) → ν → Decoded α
  /-- The text of a tree that tells which of several records this is. -/
  tag : ν → Decoded String
  /-- What a tree looks like on its own, when nothing is known of what it should be. -/
  inspect : ν → Decoded Found
  /-- Pass over a tree that is of no concern; it only has to be well formed. -/
  skip : ν → Decoded Unit

variable {ν α : Type}

def lookupName (names : List (String × α)) (name : String) : Decoded α :=
  match Entries.get? name names with
  | some a => return a
  | none => .unplacedFault (.unknownName name (names.map Prod.fst))

def named (name : α → String) (values : List α) : List (String × α) :=
  values.map fun a => (name a, a)

def listFrom (decode : ν → Decoded α) : Nat → List ν → Decoded (List α)
  | _, [] => return []
  | n, v :: rest => do
      let a ← (decode v).under (.index n)
      let as ← listFrom decode (n + 1) rest
      return a :: as

/-- Decode entries, last value of a repeated key at its first position. -/
def entries (decode : ν → Decoded α) : List (Member ν) → Decoded (List (String × α))
  | [] => return []
  | m :: rest => do
      let key ← m.key
      let a ← (decode m.value).under m.step
      let as ← entries decode rest
      return (key, a) :: as

variable [Format ν]

def optional (decode : ν → Decoded α) (v : ν) : Decoded (Option α) := do
  match ← Format.present v with
  | none => return none
  | some v => return some (← decode v)

def list (decode : ν → Decoded α) (v : ν) : Decoded (List α) :=
  Decoded.here do listFrom decode 0 (← Format.elements v)

/-- Decode a map; the last value of a repeated key stands at its first position. -/
def map (decode : ν → Decoded α) (v : ν) : Decoded (OrderedMap α) :=
  Decoded.here do return .ofList (← entries decode (← Format.members .map v))

end Decode
end InfraGraph
