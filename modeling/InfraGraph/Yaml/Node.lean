import InfraGraph.Collection.OrderedMap
import InfraGraph.Yaml.Token

/-!
# Node — the tree of a YAML text

A text is read as far as it is well formed.  Its tree holds all that stands before the first fault
and says where the fault is, so that the faults of decoding that come before it can be told.

Anchors are numbered by how many names are known where they stand.  A name that is given again
therefore shares its new number with the next new name.  An alias has the number that its name had
where the alias stands, and it stands for the last node of the whole document whose anchor has this
number, which may come after the alias or contain it.

* `Yaml.Node` — scalars, sequences, mappings and aliases;
* `Yaml.Anchors` — the numbers of names and the nodes of numbers;
* `Yaml.Document` — the first document of a text, and how the text goes on;
* `Document.ofText` — the document of a text; `Yaml.isWellFormed` — whether it is all of the text.
-/

namespace InfraGraph
namespace Yaml

inductive Node where
  | scalar (plain : Bool) (text : String)
  | sequence (items : List Node)
  | mapping (entries : List (Node × Node))
  /-- The node whose anchor has the given number. -/
  | aliasOf (number : Nat)
  /-- The text is not well formed from here on. -/
  | broken

namespace Node

instance : Inhabited Node := ⟨scalar true ""⟩

/-- The scalar that stands where nothing is written. -/
def empty : Node := scalar true ""

mutual

def isWhole : Node → Bool
  | scalar _ _ => true
  | sequence items => itemsWhole items
  | mapping entries => entriesWhole entries
  | aliasOf _ => true
  | broken => false

def itemsWhole : List Node → Bool
  | [] => true
  | v :: rest => isWhole v && itemsWhole rest

def entriesWhole : List (Node × Node) → Bool
  | [] => true
  | e :: rest => isWhole e.1 && isWhole e.2 && entriesWhole rest

end

end Node

/-! ## Anchors -/

structure Anchors where
  /-- Numbers of the names. -/
  numbers : OrderedMap Nat
  /-- Numbers of the anchors, the last anchor first. -/
  given : List Nat
  /-- Nodes of the anchors by their positions in the document. -/
  nodes : List (Nat × Node)

namespace Anchors

def none : Anchors := ⟨.empty, [], []⟩

def next (a : Anchors) : Nat := a.given.length

def add (a : Anchors) (name : String) : Anchors :=
  let number := a.numbers.size
  { a with numbers := a.numbers.insert name number, given := number :: a.given }

def bind (a : Anchors) (position : Nat) (node : Node) : Anchors :=
  { a with nodes := (position, node) :: a.nodes }

/-- Position of the last one of some anchors that has the given number; the last anchor comes
first. -/
def lastPosition? (number : Nat) : List Nat → Option Nat
  | [] => .none
  | n :: rest => if n = number then some rest.length else lastPosition? number rest

def target? (a : Anchors) (number : Nat) : Option Node := do
  a.nodes.lookup (← lastPosition? number a.given)

end Anchors

/-! ## Reading -/

/-- What is known while tokens are read.  There are no tokens left behind a fault, while otherwise
the end of the text is always left. -/
structure Reader where
  tokens : List Token
  anchors : Anchors
  /-- Number of scalars, aliases, and beginnings and ends of collections. -/
  events : Nat

namespace Reader

def start (tokens : List Token) : Reader := ⟨tokens, .none, 0⟩

def next? (r : Reader) : Option Token := r.tokens.head?

def skip (r : Reader) : Reader := { r with tokens := r.tokens.tail }

/-- Whether the next token is one of the given ones. -/
def at? (r : Reader) (ts : List Token) : Bool := r.tokens.head?.any fun t => ts.contains t

/-- Whether the text is not well formed from here on. -/
def isHalted (r : Reader) : Bool := r.tokens.isEmpty

def halt (r : Reader) : Reader := { r with tokens := [] }

/-- Count a scalar, an alias, or a beginning or end of a collection. -/
def count (r : Reader) : Reader := { r with events := r.events + 1 }

/-- A node at which the text ceases to be well formed. -/
def broken (r : Reader) : Node × Reader := (.broken, r.halt)

def empty (r : Reader) : Node × Reader := (.empty, r.count)

/-- The end of a list of items or entries. -/
def close {α : Type} (r : Reader) : List α × Reader := ([], r.count)

/-- A list of items whose next one is at fault. -/
def brokenItems (r : Reader) : List Node × Reader := ([.broken], r.halt)

/-- A list of entries whose next one is at fault. -/
def brokenEntries (r : Reader) : List (Node × Node) × Reader := ([(.broken, .broken)], r.halt)

/-- Position of the anchor at the front, if there is one. -/
def anchor (r : Reader) : Option Nat × Reader :=
  match r.tokens with
  | .anchor name :: rest =>
      (some r.anchors.next, { r with tokens := rest, anchors := r.anchors.add name })
  | _ => (none, r)

/-- Give the anchor at a position its node.  If the text ceases to be well formed right behind the
anchor, the anchors are those before it. -/
def bind (before : Anchors) (position : Option Nat) (read : Node × Reader) : Node × Reader :=
  match read, position with
  | (.broken, r), _ => (.broken, { r with anchors := before })
  | (node, r), some n => (node, { r with anchors := r.anchors.bind n node })
  | (node, r), none => (node, r)

/-- Tokens at which an item of a block sequence is empty. -/
def noItem : List Token := [.blockEntry, .blockEnd]

/-- Tokens at which an item of a block sequence that is not indented is empty. -/
def noBareItem : List Token := [.blockEntry, .key, .value, .blockEnd]

/-- Tokens at which a key or value of a block mapping is empty. -/
def noPart : List Token := [.key, .value, .blockEnd]

/-- Tokens at which a key or value inside a bracket is empty. -/
def noFlowPart (closing : Token) : List Token := [.value, .flowEntry, closing]

mutual

/-- A node.  Block collections can begin only where `block` says so, and a sequence that is not
indented only as the value or key of a block mapping. -/
def node (block bare : Bool) : Nat → Reader → Node × Reader
  | 0, r => r.broken
  | fuel + 1, r =>
      match r.next? with
      | some (.aliasOf name) =>
          match r.anchors.numbers.get? name with
          | some number => (.aliasOf number, r.skip.count)
          | none => r.broken
      | _ =>
          let (anchor, after) := r.anchor
          bind r.anchors anchor (content block bare anchor.isSome fuel after)

/-- A node without its anchor; behind an anchor it can be empty. -/
def content (block bare anchored : Bool) : Nat → Reader → Node × Reader
  | 0, r => r.broken
  | fuel + 1, r =>
      match r.next?, block, bare with
      | some (.scalar plain text), _, _ => (.scalar plain text, r.skip.count)
      | some .flowSequenceStart, _, _ =>
          let (items, r) := flowItems true fuel r.skip.count
          (.sequence items, r)
      | some .flowMappingStart, _, _ =>
          let (entries, r) := flowEntries true fuel r.skip.count
          (.mapping entries, r)
      | some .blockSequenceStart, true, _ =>
          let (items, r) := blockItems fuel r.skip.count
          (.sequence items, r)
      | some .blockMappingStart, true, _ =>
          let (entries, r) := blockEntries fuel r.skip.count
          (.mapping entries, r)
      | some .blockEntry, _, true =>
          let (items, r) := bareItems fuel r.count
          (.sequence items, r)
      | some _, _, _ => if anchored then r.empty else r.broken
      | none, _, _ => r.broken

def blockItems : Nat → Reader → List Node × Reader
  | 0, r => r.brokenItems
  | fuel + 1, r =>
      match r.next? with
      | some .blockEntry =>
          let r := r.skip
          let (item, r) := if r.at? noItem then r.empty else node true false fuel r
          let (items, r) := blockItems fuel r
          (item :: items, r)
      | some .blockEnd => r.skip.close
      | _ => r.brokenItems

/-- Items of a block sequence that is not indented. -/
def bareItems : Nat → Reader → List Node × Reader
  | 0, r => r.brokenItems
  | fuel + 1, r =>
      match r.next? with
      | some .blockEntry =>
          let r := r.skip
          let (item, r) := if r.at? noBareItem then r.empty else node true false fuel r
          let (items, r) := bareItems fuel r
          (item :: items, r)
      | some _ => r.close
      | none => r.brokenItems

/-- A key or a value of a block mapping, if its mark is at the front; empty otherwise. -/
def blockPart (mark : Token) : Nat → Reader → Node × Reader
  | 0, r => r.broken
  | fuel + 1, r =>
      if r.isHalted then r.broken
      else if !r.at? [mark] then r.empty
      else if r.skip.at? noPart then r.skip.empty
      else node true true fuel r.skip

def blockEntries : Nat → Reader → List (Node × Node) × Reader
  | 0, r => r.brokenEntries
  | fuel + 1, r =>
      match r.next? with
      | some .key =>
          let (key, r) := blockPart .key fuel r
          let (value, r) := blockPart .value fuel r
          let (entries, r) := blockEntries fuel r
          ((key, value) :: entries, r)
      | some .blockEnd => r.skip.close
      | _ => r.brokenEntries

/-- A value inside a bracket, if its mark is at the front; empty otherwise. -/
def flowValue (closing : Token) : Nat → Reader → Node × Reader
  | 0, r => r.broken
  | fuel + 1, r =>
      if r.isHalted then r.broken
      else if !r.at? [.value] then r.empty
      else if r.skip.at? [.flowEntry, closing] then r.skip.empty
      else node false false fuel r.skip

/-- A mapping of one entry inside the brackets of a sequence; the reader is behind the mark of its
key.  The token at which the key turns out to be empty is passed over. -/
def pair : Nat → Reader → Node × Reader
  | 0, r => r.broken
  | fuel + 1, r =>
      let r := r.count
      let (key, r) :=
        if r.at? (noFlowPart .flowSequenceEnd) then r.skip.empty else node false false fuel r
      let (value, r) := flowValue .flowSequenceEnd fuel r
      let (entries, r) := if r.isHalted then r.brokenEntries else r.close
      (.mapping ((key, value) :: entries), r)

/-- Items of a sequence in brackets up to its end; an item can be a mapping of one entry. -/
def flowItems (first : Bool) : Nat → Reader → List Node × Reader
  | 0, r => r.brokenItems
  | fuel + 1, r =>
      if r.at? [.flowSequenceEnd] then r.skip.close
      else if !first ∧ !r.at? [.flowEntry] then r.brokenItems
      else
        let r := if first then r else r.skip
        if r.at? [.flowSequenceEnd] then r.skip.close
        else
          let (item, r) := if r.at? [.key] then pair fuel r.skip else node false false fuel r
          let (items, r) := flowItems false fuel r
          (item :: items, r)

/-- An entry of a mapping in brackets; without a mark before its key it has no value. -/
def flowEntry : Nat → Reader → (Node × Node) × Reader
  | 0, r => ((.broken, .broken), r.halt)
  | fuel + 1, r =>
      if r.at? [.key] then
        let r := r.skip
        let (key, r) :=
          if r.at? (noFlowPart .flowMappingEnd) then r.empty else node false false fuel r
        let (value, r) := flowValue .flowMappingEnd fuel r
        ((key, value), r)
      else
        let (key, r) := node false false fuel r
        let (value, r) := if r.isHalted then r.broken else r.empty
        ((key, value), r)

/-- Entries of a mapping in brackets up to its end. -/
def flowEntries (first : Bool) : Nat → Reader → List (Node × Node) × Reader
  | 0, r => r.brokenEntries
  | fuel + 1, r =>
      if r.at? [.flowMappingEnd] then r.skip.close
      else if !first ∧ !r.at? [.flowEntry] then r.brokenEntries
      else
        let r := if first then r else r.skip
        if r.at? [.flowMappingEnd] then r.skip.close
        else
          let (entry, r) := flowEntry fuel r
          let (entries, r) := flowEntries false fuel r
          (entry :: entries, r)

end

/-- The node of a document; no document at all counts as an empty one, and an explicit one may be
empty. -/
def root (r : Reader) : Node × Reader :=
  let fuel := 8 * r.tokens.length + 8
  if r.at? [.streamEnd] then r.empty
  else if r.at? [.documentStart] then
    if r.skip.at? [.documentStart, .documentEnd, .streamEnd] then r.skip.empty
    else node true false fuel r.skip
  else node true false fuel r

def skipEnds (r : Reader) : Reader :=
  { r with tokens := r.tokens.dropWhile fun t => t == .documentEnd }

end Reader

/-! ## Documents -/

/-- How a text goes on after its first document. -/
inductive Ending where
  /-- It ends. -/
  | complete
  /-- The document itself is not well formed. -/
  | broken
  /-- There is something more. -/
  | followed
deriving DecidableEq

/-- The first document of a text. -/
structure Document where
  root : Node
  anchors : Anchors
  /-- Number of scalars, aliases, and beginnings and ends of collections. -/
  events : Nat
  ending : Ending

namespace Document

def ofTokens (tokens : List Token) : Document :=
  let (root, r) := (Reader.start tokens).root
  let ending :=
    if r.isHalted then .broken else if r.skipEnds.at? [.streamEnd] then .complete else .followed
  ⟨root, r.anchors, r.events, ending⟩

def ofText (text : String) : Document := ofTokens (Token.ofText text)

end Document

def isWellFormed (text : String) : Bool := (Document.ofText text).ending == .complete

end Yaml
end InfraGraph
