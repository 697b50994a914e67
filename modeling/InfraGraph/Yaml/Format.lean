import InfraGraph.Decode.Format
import InfraGraph.Yaml.Node
import InfraGraph.Yaml.Scalar

/-!
# Format — decoding YAML trees

What a scalar is read as depends on what is expected: any scalar is a text by its characters, while
truth values and numbers have to be plain.  Nothing written stands for an empty mapping, sequence or
record, and for an absent value.

An alias is decoded like the node it stands for.  So that this comes to an end, collections that are
decoded may contain each other only so often, and aliases are followed only so often for the size of
the document.  What is passed over is not limited.

* `Yaml.View` — a node to be decoded, with its document;
* the instance of `Decode.Format` for `Yaml.View`;
* `Yaml.decode` — decode a text;
* `Yaml.wording` — how faults in YAML trees are worded.
-/

namespace InfraGraph
namespace Yaml

open Decode

def wording : Wording := ⟨"unit value", Decimal.writtenOut, "malformed YAML"⟩

/-! ## Nodes -/

namespace Document

/-- Follow an alias.  Only a hundred aliases are followed for each part of the document. -/
def follow (d : Document) : Node → Decoded Node
  | .aliasOf number => do
      modify (· + 1)
      if 100 * d.events < (← get) then .fault .tooManyReferences
      else
        match d.anchors.target? number with
        | some node => return node
        | none => .fault .malformed
  | node => return node

end Document

namespace Node

def scalarFound (plain : Bool) (s : String) : Found := if plain then plainFound s else .text s

/-- The fault of a node that is not what was expected. -/
def mismatch {α : Type} (expected : String) : Node → Decoded α
  | scalar plain s => .fault (.invalidType (scalarFound plain s) expected)
  | sequence _ => .fault (.invalidType .sequence expected)
  | mapping _ => .fault (.invalidType .map expected)
  | aliasOf _ | broken => .fault .malformed

def step : Node → Step
  | scalar _ s => .key s
  | _ => .unnamed

/-- A scalar of no known type; it cannot hold an integer of more than 64 bits. -/
def inspectScalar (plain : Bool) (s : String) : Decoded Found :=
  match scalarFound plain s with
  | .wideInteger n => .fault (.invalidType (.wideInteger n) "any value")
  | found => return found

def inspectEntries (inspect : Node → Decoded Found) : List (Node × Node) → Decoded Unit
  | [] => return ()
  | e :: rest => do
      let _ ← inspect e.1
      let _ ← (inspect e.2).under e.1.step
      inspectEntries inspect rest

/-- A node of no known type, and whether its parts can be held. -/
def inspect (d : Document) : Nat → Node → Decoded Found
  | 0, node => do
      match ← d.follow node with
      | scalar plain s => inspectScalar plain s
      | sequence _ | mapping _ => .fault .tooDeep
      | aliasOf _ | broken => .fault .malformed
  | room + 1, node => do
      match ← d.follow node with
      | scalar plain s => inspectScalar plain s
      | sequence items => do
          let _ ← listFrom (inspect d room) 0 items
          return .sequence
      | mapping entries => do
          inspectEntries (inspect d room) entries
          return .map
      | aliasOf _ | broken => .fault .malformed

end Node

/-! ## Views -/

structure View where
  node : Node
  document : Document
  /-- How many collections may still contain each other. -/
  room : Nat

namespace View

def follow (v : View) : Decoded View := do return { v with node := ← v.document.follow v.node }

def inside (v : View) : Decoded Nat :=
  match v.room with
  | 0 => .fault .tooDeep
  | n + 1 => return n

/-- The text of a node, given what it is for. -/
def textFor (expected : String) (v : View) : Decoded String := do
  match ← v.document.follow v.node with
  | .scalar _ s => return s
  | node => node.mismatch expected

def text : View → Decoded String := textFor "a string"

/-- The text of a node that tells which of several records this is. -/
def tag : View → Decoded String := textFor Shape.expectedTag

def flag (v : View) : Decoded Bool := do
  match ← v.document.follow v.node with
  | .scalar true s =>
      match plainFound s with
      | .bool b => return b
      | found => .fault (.invalidType found "a boolean")
  | node => node.mismatch "a boolean"

/-- The 32-bit natural number of a node; a number of more than 64 bits counts as no number at
all. -/
def natural32 (v : View) : Decoded UInt32 := do
  let node ← v.document.follow v.node
  match node with
  | .scalar true s =>
      match natural? s with
      | some n =>
          if n < UInt32.size then return UInt32.ofNat n
          else if n < UInt64.size then .fault (.invalidValue (.integer n) "u32")
          else node.mismatch "u32"
      | none => node.mismatch "u32"
  | _ => node.mismatch "u32"

def present (v : View) : Decoded (Option View) := do
  let v ← v.follow
  match v.node with
  | .scalar true s => return if isNullWord s then none else some v
  | .aliasOf _ | .broken => .fault .malformed
  | _ => return some v

def elements (v : View) : Decoded (List View) := do
  match ← v.document.follow v.node with
  | .sequence items => do
      let room ← v.inside
      return items.map fun node => ⟨node, v.document, room⟩
  | .scalar true "" => return []
  | node => node.mismatch "a sequence"

def keyText (shape : Shape) (d : Document) (key : Node) : Decoded String := do
  match ← d.follow key with
  | .scalar _ s => return s
  | node => node.mismatch shape.expectedKey

def members (shape : Shape) (v : View) : Decoded (List (Member View)) := do
  match ← v.document.follow v.node with
  | .mapping entries => do
      let room ← v.inside
      return entries.map fun e =>
        ⟨keyText shape v.document e.1, e.1.step, ⟨e.2, v.document, room⟩⟩
  | .scalar true "" => return []
  | node => node.mismatch shape.expected

/-- One of several names, given by the text of a scalar. -/
def name {α : Type} (names : List (String × α)) (v : View) : Decoded α := do
  match ← v.document.follow v.node with
  | .scalar _ s => (lookupName names s).here
  | node => node.mismatch "a YAML tag starting with '!'"

/-- Pass over a node; aliases are not followed. -/
def skip (v : View) : Decoded Unit := if v.node.isWhole then return () else .fault .malformed

end View

instance : Format View where
  text := View.text
  flag := View.flag
  natural32 := View.natural32
  present := View.present
  elements := View.elements
  members := View.members
  tuple? _ := none
  name := View.name
  tag := View.tag
  inspect v := Node.inspect v.document v.room v.node
  skip := View.skip

/-! ## Texts -/

/-- How many collections of a text can contain each other. -/
def maxDepth : Nat := 128

def decode {α : Type} (decoder : View → Decoded α) (text : String) : Except Failure α := do
  let d := Document.ofText text
  let a ← (decoder ⟨d.root, d, maxDepth⟩).result
  match d.ending with
  | .complete => return a
  | .broken => throw (.unplaced .malformed)
  | .followed => throw (.unplaced .furtherDocuments)

end Yaml
end InfraGraph
