import InfraGraph.Decode.Format
import InfraGraph.Json.Reader

/-!
# Format — decoding JSON trees

Scalars are read as what they are, null stands for an absent value, and an array can give the fields
of a record in order.  In a text, only so many arrays and objects that are decoded may contain each
other; what is passed over may be of any depth.

* `Json.View` — a tree to be decoded, and how deep it may be;
* the instance of `Decode.Format` for `Json.View`;
* `View.value` — the value itself, of any type;
* `View.alternative` — an alternative with a content: an object with one member;
* `Json.decode` — decode a text;
* `Json.wording` — how faults in JSON trees are worded.
-/

namespace InfraGraph
namespace Json

open Decode

def wording : Wording := ⟨"null", Decimal.exponential, "malformed JSON"⟩

structure View where
  source : Source
  /-- How many arrays and objects may still contain each other, if there is a bound. -/
  room : Option Nat

/-- How many arrays and objects of a text can contain each other. -/
def maxDepth : Nat := 127

def Source.view (source : Source) : View := ⟨source, some maxDepth⟩

/-- A value, to be decoded; it may be of any depth. -/
def view (v : Json) : View := ⟨.ofJson v, none⟩

def found : Json → Found
  | null => .null
  | bool b => .bool b
  | int n => .integer n
  | float x => .float x
  | str s => .text s
  | arr _ => .sequence
  | obj _ => .map

/-! ## Parts of trees -/

namespace Source

/-- The fault of a tree that is not what was expected. -/
def mismatch {α : Type} (expected : String) : Source → Decoded α
  | null => .fault (.invalidType .null expected)
  | bool b => .fault (.invalidType (.bool b) expected)
  | int n => .fault (.invalidType (.integer n) expected)
  | float x => .fault (.invalidType (.float x) expected)
  | str s => .fault (.invalidType (.text s) expected)
  | arr _ => .fault (.invalidType .sequence expected)
  | obj _ => .fault (.invalidType .map expected)
  | fault cause => .fault cause

/-- The fault of a tree that is no alternative.  A number is none, whether or not it has a meaning.
-/
def noAlternative {α : Type} : Source → Decoded α
  | fault .numberOutOfRange => .fault .noAlternative
  | fault cause => .fault cause
  | _ => .fault .noAlternative

def keyText : Except Cause String → Decoded String
  | .ok s => return s
  | .error cause => .fault cause

/-- The room inside an array or object. -/
def inside : Option Nat → Decoded (Option Nat)
  | none => return none
  | some 0 => .fault .tooDeep
  | some (n + 1) => return some n

def oneMember : List (Except Cause String × Source) → Decoded Unit
  | [] => return ()
  | (.error .malformed, _) :: _ => .fault .malformed
  | _ :: _ => .fault .noAlternative

mutual

def decodeValue (room : Option Nat) : Source → Decoded Json
  | null => return .null
  | bool b => return .bool b
  | int n => return .int n
  | float x => return .float x
  | str s => return .str s
  | arr items => do return .arr (← decodeItems (← inside room) items)
  | obj members => do return .obj (← decodeMembers (← inside room) members)
  | fault cause => .fault cause

def decodeItems (room : Option Nat) : List Source → Decoded (List Json)
  | [] => return []
  | v :: rest => do
      let value ← decodeValue room v
      return value :: (← decodeItems room rest)

def decodeMembers (room : Option Nat) :
    List (Except Cause String × Source) → Decoded (List (String × Json))
  | [] => return []
  | m :: rest => do
      let key ← keyText m.1
      let value ← decodeValue room m.2
      return (key, value) :: (← decodeMembers room rest)

end

end Source

/-! ## Views -/

namespace View

/-- The text of a tree, given what it is for. -/
def textFor (expected : String) (v : View) : Decoded String :=
  match v.source with
  | .str s => return s
  | source => source.mismatch expected

def text : View → Decoded String := textFor "a string"

/-- The text of a tree that tells which of several records this is. -/
def tag : View → Decoded String := textFor Shape.expectedTag

def flag (v : View) : Decoded Bool :=
  match v.source with
  | .bool b => return b
  | source => source.mismatch "a boolean"

def integer (low high : Int) (expected : String) (v : View) : Decoded Int :=
  match v.source with
  | .int n =>
      if low ≤ n ∧ n ≤ high then return n else .fault (.invalidValue (.integer n) expected)
  | source => source.mismatch expected

def natural32 (v : View) : Decoded UInt32 := do
  let n ← v.integer 0 (UInt32.size - 1) "u32"
  return UInt32.ofNat n.toNat

/-- The tree, unless it is null. -/
def present (v : View) : Decoded (Option View) :=
  match v.source with
  | .null => return none
  | _ => return some v

def ofItems (room : Option Nat) (items : List Source) : Decoded (List View) := do
  let room ← Source.inside room
  return items.map fun source => ⟨source, room⟩

def elements (v : View) : Decoded (List View) :=
  match v.source with
  | .arr items => ofItems v.room items
  | source => source.mismatch "a sequence"

def memberOf (room : Option Nat) (m : Except Cause String × Source) : Member View :=
  ⟨Source.keyText m.1, match m.1 with
    | .ok key => .key key
    | .error _ => .unnamed, ⟨m.2, room⟩⟩

def members (shape : Shape) (v : View) : Decoded (List (Member View)) :=
  match v.source with
  | .obj members => do
      let room ← Source.inside v.room
      return members.map (memberOf room)
  | source => source.mismatch shape.expected

/-- The items of an array that gives the fields of a record. -/
def tuple? (v : View) : Option (Decoded (List View)) :=
  match v.source with
  | .arr items => some (ofItems v.room items)
  | _ => none

def value (v : View) : Decoded Json := v.source.decodeValue v.room

def skip (v : View) : Decoded Unit :=
  if v.source.isWhole then return () else .fault .malformed

/-- An alternative: its bare name, or an object with one member that has its name. -/
def choose {α β : Type} (names : List (String × β)) (bare : β → Decoded α)
    (withContent : β → View → Decoded α) (v : View) : Decoded α :=
  match v.source with
  | .str s => do bare (← lookupName names s)
  | .obj [] => do
      let _ ← Source.inside v.room
      .fault .noAlternative
  | .obj (m :: rest) => do
      let room ← Source.inside v.room
      let a ← withContent (← lookupName names (← Source.keyText m.1)) ⟨m.2, room⟩
      Source.oneMember rest
      return a
  | source => source.noAlternative

/-- One of several names; an object can give it with null as content. -/
def name {α : Type} (names : List (String × α)) : View → Decoded α :=
  choose names pure fun a content => do
    match content.source with
    | .null => return a
    | source => source.mismatch "unit"

/-- An alternative with a content, given how each content is decoded. -/
def alternative {α : Type} (decoders : List (String × (View → Decoded α))) : View → Decoded α :=
  choose decoders (fun _ => .fault (.invalidType .bareName "newtype variant")) id

end View

instance : Format View where
  text := View.text
  flag := View.flag
  natural32 := View.natural32
  present := View.present
  elements := View.elements
  members := View.members
  tuple? := View.tuple?
  name := View.name
  tag := View.tag
  inspect v := found <$> v.value
  skip := View.skip

/-! ## Texts -/

def decode {α : Type} (decoder : View → Decoded α) (text : String) : Except Failure α := do
  let (source, rest) := Source.ofText text
  let a ← (decoder source.view).result
  match rest with
  | none => throw (.unplaced .malformed)
  | some [] => return a
  | some (_ :: _) => throw (.unplaced .furtherItems)

end Json
end InfraGraph
