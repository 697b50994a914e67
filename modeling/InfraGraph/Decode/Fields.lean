import InfraGraph.Decode.Format

/-!
# Fields — records with named fields

A record is decoded by going through the entries of a mapping once.  Each known field is decoded
when it is met, so the first fault in the order of the text is the one reported; a field met twice
is a fault, an unknown one is passed over, and missing fields are looked for at the end, in the
order in which the record lists them.

* `Fields` — the fields of a record, built with `<$>` and `<*>` from `Fields.required` and
  `Fields.withDefault`;
* `Fields.ofPairs`, `Fields.ofMembers` — decode the fields from pairs and from a mapping;
* `Decode.record` — decode a record from a tree.
-/

namespace InfraGraph
namespace Decode

structure Fields (ν α : Type) where
  /-- Values of the fields met so far. -/
  Slots : Type
  /-- No field has been met. -/
  blank : Slots
  /-- Take an entry, if it is one of the fields. -/
  fill : String → ν → Slots → Option (Decoded Slots)
  /-- The record, once there are no more entries. -/
  finish : Slots → Decoded α
  /-- Number of fields. -/
  size : Nat
  /-- The record and the further items, from items that give its fields in order; the text says
  what is expected, and the number how many items came before. -/
  ordered : String → Nat → List ν → Decoded (α × List ν)

namespace Fields

variable {ν α β : Type}

instance : Functor (Fields ν) where
  map f fields :=
    { Slots := fields.Slots
      blank := fields.blank
      fill := fields.fill
      finish := fun slots => f <$> fields.finish slots
      size := fields.size
      ordered := fun expected n items => do
        let (a, rest) ← fields.ordered expected n items
        return (f a, rest) }

instance : Seq (Fields ν) where
  seq first second :=
    let f := first
    let x := second ()
    { Slots := f.Slots × x.Slots
      blank := (f.blank, x.blank)
      fill := fun key v slots =>
        match f.fill key v slots.1 with
        | some d => some ((·, slots.2) <$> d)
        | none => (x.fill key v slots.2).map fun d => (slots.1, ·) <$> d
      finish := fun slots => do
        let g ← f.finish slots.1
        let a ← x.finish slots.2
        return g a
      size := f.size + x.size
      ordered := fun expected n items => do
        let (g, items) ← f.ordered expected n items
        let (a, items) ← x.ordered expected (n + f.size) items
        return (g a, items) }

/-- A field, given what to do when it is missing. -/
def field (name : String) (decode : ν → Decoded α) (missing : Decoded α)
    (tooShort : Cause → Decoded α) : Fields ν α where
  Slots := Option α
  blank := none
  fill key v slot :=
    if key = name then
      match slot with
      | some _ => some (.unplacedFault (.duplicateField name))
      | none => some (some <$> decode v)
    else none
  finish slot :=
    match slot with
    | some a => return a
    | none => missing
  size := 1
  ordered expected n items :=
    match items with
    | v :: rest => return (← decode v, rest)
    | [] => return (← tooShort (.invalidLength n expected), [])

def required (name : String) (decode : ν → Decoded α) : Fields ν α :=
  field name decode (.unplacedFault (.missingField name)) .unplacedFault

def withDefault (name : String) (default : α) (decode : ν → Decoded α) : Fields ν α :=
  field name decode (return default) fun _ => return default

/-- Take an entry, passing over it if it is none of the fields. -/
def take (fields : Fields ν α) (pass : ν → Decoded Unit) (key : String) (step : Step) (v : ν)
    (slots : fields.Slots) : Decoded fields.Slots :=
  match fields.fill key v slots with
  | some d => d.under step
  | none => do
      pass v
      return slots

def takePairs (fields : Fields ν α) (slots : fields.Slots) :
    List (String × ν) → Decoded fields.Slots
  | [] => return slots
  | (key, v) :: rest => do
      let slots ← fields.take (fun _ => return ()) key (.key key) v slots
      takePairs fields slots rest

/-- The record of some pairs. -/
def ofPairs (fields : Fields ν α) (pairs : List (String × ν)) : Decoded α := do
  fields.finish (← fields.takePairs fields.blank pairs)

variable [Format ν]

def takeMembers (fields : Fields ν α) (slots : fields.Slots) :
    List (Member ν) → Decoded fields.Slots
  | [] => return slots
  | m :: rest => do
      let key ← m.key
      let slots ← fields.take Format.skip key m.step m.value slots
      takeMembers fields slots rest

/-- The record of a mapping. -/
def ofMembers (fields : Fields ν α) (members : List (Member ν)) : Decoded α := do
  fields.finish (← fields.takeMembers fields.blank members)

/-- The record of items that give the fields in order. -/
def ofItems (fields : Fields ν α) (expected : String) (items : List ν) : Decoded α := do
  let count := toString fields.size ++ if fields.size = 1 then " element" else " elements"
  match ← fields.ordered (expected ++ " with " ++ count) 0 items with
  | (a, []) => return a
  | (_, v :: _) => do
      Format.skip v
      .unplacedFault .furtherItems

end Fields

def record {ν α : Type} [Format ν] (name : String) (fields : Fields ν α) (v : ν) : Decoded α :=
  Decoded.here <|
    match Format.tuple? v with
    | some items => do fields.ofItems (Shape.record name).expected (← items)
    | none => do fields.ofMembers (← Format.members (.record name) v)

end Decode
end InfraGraph
