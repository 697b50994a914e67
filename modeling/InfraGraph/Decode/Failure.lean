import InfraGraph.Decimal.Layout
import InfraGraph.Text.Unseen

/-!
# Failure — why a value does not decode

A text of a text format decodes to a type of the domain or fails with the first fault in its order.
That the text is not well formed from some point on is a fault like any other: what stands before
this point is decoded first.

* `Found` — what was met in place of what was expected;
* `Cause` — the faults, and `Cause.message`, how they are worded;
* `Step`, `Failure` — a fault with the place at which it is reported;
* `Failure.under`, `Failure.here` — how a place is built up from the inside out;
* `Decoded` — a value or a fault, with the number of references that were followed on the way.
-/

namespace InfraGraph
namespace Decode

/-! ## What was met -/

/-- A value that was met, as far as messages describe it. -/
inductive Found where
  | null
  | bool (value : Bool)
  | integer (value : Int)
  /-- An integer that does not fit into 64 bits. -/
  | wideInteger (value : Int)
  | float (value : Float)
  | text (value : String)
  | sequence
  | map
  /-- The bare name of an alternative that has a content. -/
  | bareName

/-- Decisions of a format on how it words what was met. -/
structure Wording where
  null : String
  float : Decimal.Layout
  /-- What a text is that is not well formed. -/
  malformed : String

namespace Found

/-- A text between the marks that messages put around values. -/
def mark (s : String) : String := "`" ++ s ++ "`"

def message (w : Wording) : Found → String
  | null => w.null
  | bool b => "boolean " ++ mark (if b then "true" else "false")
  | integer n => "integer " ++ mark (toString n)
  | wideInteger n => "integer " ++ mark (toString n) ++ (if n < 0 then " as i128" else " as u128")
  | float x => "floating point " ++ mark (w.float.text x)
  | text s => "string " ++ Text.shown s
  | sequence => "sequence"
  | map => "map"
  | bareName => "unit variant"

end Found

/-! ## Faults -/

inductive Cause where
  | invalidType (found : Found) (expected : String)
  | invalidValue (found : Found) (expected : String)
  | invalidLength (length : Nat) (expected : String)
  | missingField (name : String)
  | duplicateField (name : String)
  | unknownName (name : String) (known : List String)
  /-- Neither the name of an alternative nor an object with one member. -/
  | noAlternative
  /-- Items after the last field of a record. -/
  | furtherItems
  /-- A path without its leading slash. -/
  | relativePath (text : String)
  /-- A number beyond the largest double. -/
  | numberOutOfRange
  /-- One half of a surrogate pair that another character follows. -/
  | unfinishedPair
  /-- Two code units that form no surrogate pair, or a second half without a first. -/
  | unpairedUnit
  /-- The text is not well formed from here on. -/
  | malformed
  /-- The text goes on after the document. -/
  | furtherDocuments
  /-- Values are contained in each other too deep. -/
  | tooDeep
  /-- References are followed too often. -/
  | tooManyReferences

namespace Cause

/-- Whether a fault is one of the text rather than of a value in it; it is reported without a
place. -/
def isOfText : Cause → Bool
  | malformed | furtherDocuments | tooDeep | tooManyReferences => true
  | _ => false

def choice : List String → String
  | [] => "there are no variants"
  | [a] => "expected " ++ Found.mark a
  | [a, b] => "expected " ++ Found.mark a ++ " or " ++ Found.mark b
  | names => "expected one of " ++ ", ".intercalate (names.map Found.mark)

def message (w : Wording) : Cause → String
  | invalidType found expected =>
      "invalid type: " ++ found.message w ++ ", expected " ++ expected
  | invalidValue found expected =>
      "invalid value: " ++ found.message w ++ ", expected " ++ expected
  | invalidLength length expected =>
      "invalid length " ++ toString length ++ ", expected " ++ expected
  | missingField name => "missing field " ++ Found.mark name
  | duplicateField name => "duplicate field " ++ Found.mark name
  | unknownName name known => "unknown variant " ++ Found.mark name ++ ", " ++ choice known
  | noAlternative => "expected value"
  | furtherItems => "trailing characters"
  | relativePath text => "path must start with '/': " ++ text
  | numberOutOfRange => "number out of range"
  | unfinishedPair => "unexpected end of hex escape"
  | unpairedUnit => "lone leading surrogate in hex escape"
  | malformed => w.malformed
  | furtherDocuments => "deserializing from YAML containing more than one document is not supported"
  | tooDeep => "recursion limit exceeded"
  | tooManyReferences => "repetition limit exceeded"

end Cause

/-! ## Places -/

/-- One step from a value to a part of it. -/
inductive Step where
  | key (name : String)
  | index (n : Nat)
  /-- The value of a key that is not a plain text. -/
  | unnamed
deriving DecidableEq

namespace Step

def extend (path : String) (step : Step) : String :=
  let base := if path = "." then "" else path ++ "."
  match step with
  | key name => base ++ name
  | index n => path ++ "[" ++ toString n ++ "]"
  | unnamed => base ++ "?"

/-- Text of the path to a part; a dot for the whole. -/
def pathText (steps : List Step) : String := steps.foldl extend "."

end Step

/-- A fault with its place; one that has no place yet is reported at the record around it. -/
structure Failure where
  cause : Cause
  place : Option (List Step)

namespace Failure

/-- A fault at the value itself. -/
def placed (cause : Cause) : Failure := ⟨cause, some []⟩

/-- A fault without a place. -/
def unplaced (cause : Cause) : Failure := ⟨cause, none⟩

/-- A fault of a part as a fault of the whole. -/
def under (step : Step) (f : Failure) : Failure := ⟨f.cause, f.place.map (step :: ·)⟩

/-- Report a fault that has no place yet at this value. -/
def here (f : Failure) : Failure := ⟨f.cause, some (f.place.getD [])⟩

def bare (w : Wording) (f : Failure) : String := f.cause.message w

/-- Wording of a fault after the path to its place; the whole needs no path. -/
def located (w : Wording) (f : Failure) : String :=
  match f.place with
  | some (step :: rest) =>
      if f.cause.isOfText then f.bare w else Step.pathText (step :: rest) ++ ": " ++ f.bare w
  | _ => f.bare w

end Failure

/-- A decoded value, or the first fault.  The state is the number of references that have been
followed. -/
abbrev Decoded (α : Type) := StateT Nat (Except Failure) α

namespace Decoded

variable {α : Type}

/-- What a decoder yields by itself. -/
def result (d : Decoded α) : Except Failure α := (d.run 0).map Prod.fst

/-- A decoded value with its fault, if it has one, changed. -/
def mapFault (f : Failure → Failure) (d : Decoded α) : Decoded α := fun n => (d n).mapError f

def under (step : Step) (d : Decoded α) : Decoded α := d.mapFault (Failure.under step)

/-- A decoded value, with faults that have no place reported at it. -/
def here (d : Decoded α) : Decoded α := d.mapFault Failure.here

/-- A fault at the value itself. -/
def fault (cause : Cause) : Decoded α := throw (.placed cause)

/-- A fault that is reported at the record around it. -/
def unplacedFault (cause : Cause) : Decoded α := throw (.unplaced cause)

end Decoded
end Decode
end InfraGraph
