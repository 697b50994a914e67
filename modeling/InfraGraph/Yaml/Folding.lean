import InfraGraph.Yaml.Cursor

/-!
# Folding — scalars that span lines

In a plain or quoted scalar a single break stands for a blank, and of several breaks all but the
first are kept.  Blanks around breaks are dropped.  In a block scalar the lines are kept, or folded
where neither of two neighbours is indented.

* `Yaml.Gap` — blanks and breaks between two words, and `Gap.text`, what they stand for;
* `Yaml.plain?`, `Yaml.single?`, `Yaml.double?`, `Yaml.block?` — scalars of each style: the text,
  and the cursor after it.
-/

namespace InfraGraph
namespace Yaml

/-! ## Gaps -/

/-- Blanks and breaks between two words. -/
structure Gap where
  /-- Blanks before the first break. -/
  blanks : List Char
  /-- Text of the first break. -/
  first : List Char
  /-- Texts of the breaks after the first one. -/
  further : List Char
  /-- Whether the next word stands on a later line. -/
  broken : Bool

namespace Gap

def none : Gap := ⟨[], [], [], false⟩

/-- The gap after a break that is escaped, and so stands for nothing. -/
def escaped : Gap := ⟨[], [], [], true⟩

def addBlank (g : Gap) (x : Char) : Gap :=
  if g.broken then g else { g with blanks := g.blanks ++ [x] }

def addBreak (g : Gap) (text : List Char) : Gap :=
  if g.broken then { g with further := g.further ++ text } else ⟨[], text, g.further, true⟩

def text (g : Gap) : List Char :=
  if g.broken then
    if g.first = ['\n'] then (if g.further.isEmpty then [' '] else g.further)
    else g.first ++ g.further
  else g.blanks

end Gap

/-- The gap at the front.  A tab on a later line left of `indent` is no indentation. -/
def gap? (indent : Int) : Nat → Gap → Cursor → Option (Gap × Cursor)
  | 0, g, c => some (g, c)
  | fuel + 1, g, c =>
      match c.next? with
      | .none => some (g, c)
      | .some x =>
          if isBlank x then
            if g.broken ∧ x = '\t' ∧ (c.column : Int) < indent then .none
            else gap? indent fuel (g.addBlank x) (c.advance 1)
          else if isBreak x then gap? indent fuel (g.addBreak c.breakText) c.newline
          else some (g, c)

/-! ## Plain scalars -/

/-- Characters that end a plain word inside brackets. -/
def isBracketMark (c : Char) : Bool := c ∈ [',', '[', ']', '{', '}']

/-- A plain word at the front and its rest.  Inside brackets a colon right before a mark is a
fault. -/
def plainWord? (inBrackets : Bool) : List Char → Option (List Char × List Char)
  | [] => some ([], [])
  | x :: rest =>
      if isGap x then some ([], x :: rest)
      else if inBrackets && x == ':' && rest.head?.any fun y => isBracketMark y || y == '?' then
        none
      else if (x == ':' && startsWithGap rest) || (inBrackets && isBracketMark x) then
        some ([], x :: rest)
      else (plainWord? inBrackets rest).map fun (word, rest) => (x :: word, rest)

/-- A scalar that has been read: its text, the cursor after it, and whether it ended on a line after
that of its last word. -/
structure Scanned where
  text : List Char
  cursor : Cursor
  broken : Bool

/-- The words of a plain scalar after the characters `done`, the last one first, and a gap.  Words
of later lines stand at `indent` or right of it. -/
def plainWords? (inBrackets : Bool) (indent : Int) :
    Nat → List Char → Gap → Cursor → Option Scanned
  | 0, done, gap, c => some ⟨done.reverse, c, gap.broken⟩
  | fuel + 1, done, gap, c =>
      if c.atDocumentMark ∨ c.at? '#' then some ⟨done.reverse, c, gap.broken⟩
      else do
        let (word, _) ← plainWord? inBrackets c.rest
        let after := c.advance word.length
        let done := if word.isEmpty then done else (gap.text ++ word).reverse ++ done
        let gap := if word.isEmpty then gap else .none
        if after.atGap then
          let (gap, after) ← gap? indent (after.size + 1) gap after
          if !inBrackets ∧ (after.column : Int) < indent then
            some ⟨done.reverse, after, gap.broken⟩
          else plainWords? inBrackets indent fuel done gap after
        else some ⟨done.reverse, after, gap.broken⟩

/-- A plain scalar.  The indentation is that of the collection around it. -/
def plain? (inBrackets : Bool) (indent : Int) (c : Cursor) : Option Scanned :=
  plainWords? inBrackets (indent + 1) (c.size + 1) [] .none c

/-! ## Quoted scalars -/

/-- A part of a quoted scalar: its text, the number of characters it takes up, and whether it ends
in an escaped break. -/
structure QuotedPart where
  text : List Char
  width : Nat
  escapedBreak : Bool

namespace QuotedPart

def empty : QuotedPart := ⟨[], 0, false⟩

/-- Put a character that takes up `width` characters in front. -/
def cons (x : Char) (width : Nat) (p : QuotedPart) : QuotedPart :=
  ⟨x :: p.text, p.width + width, p.escapedBreak⟩

end QuotedPart

/-- Part of a single-quoted scalar up to a gap or the closing quote; a quote is written twice. -/
def singlePart : List Char → QuotedPart
  | [] => .empty
  | '\'' :: '\'' :: rest => (singlePart rest).cons '\'' 2
  | x :: rest =>
      if x = '\'' ∨ isGap x then .empty else (singlePart rest).cons x 1

def shortEscape? (x : Char) : Option Char :=
  match x with
  | '0' => some '\x00'
  | 'a' => some '\x07'
  | 'b' => some '\x08'
  | 't' => some '\t'
  | '\t' => some '\t'
  | 'n' => some '\n'
  | 'v' => some '\x0b'
  | 'f' => some '\x0c'
  | 'r' => some '\r'
  | 'e' => some '\x1b'
  | ' ' => some ' '
  | '"' => some '"'
  | '/' => some '/'
  | '\\' => some '\\'
  | 'N' => some '\x85'
  | '_' => some '\xa0'
  | 'L' => some '\u2028'
  | 'P' => some '\u2029'
  | _ => none

/-- Number of hexadecimal digits after the letter of a numeric escape. -/
def escapeDigits? (x : Char) : Option Nat :=
  match x with
  | 'x' => some 2
  | 'u' => some 4
  | 'U' => some 8
  | _ => none

def hexDigit? (c : Char) : Option Nat :=
  if c.isDigit then some (c.toNat - '0'.toNat)
  else if 'a' ≤ c ∧ c ≤ 'f' then some (c.toNat - 'a'.toNat + 10)
  else if 'A' ≤ c ∧ c ≤ 'F' then some (c.toNat - 'A'.toNat + 10)
  else none

/-- Character of hexadecimal digits; surrogates and numbers beyond the last character have none. -/
def hexChar? (digits : List Char) : Option Char := do
  let n ← digits.foldlM (fun n d => return n * 16 + (← hexDigit? d)) 0
  if (0xD800 ≤ n ∧ n ≤ 0xDFFF) ∨ 0x10FFFF < n then none
  return Char.ofNat n

/-- Part of a double-quoted scalar up to a gap or the closing quote. -/
def doublePart? : Nat → List Char → Option QuotedPart
  | 0, _ => some .empty
  | _, [] => some .empty
  | fuel + 1, '\\' :: x :: rest =>
      if isBreak x then some ⟨[], 1, true⟩
      else
        match shortEscape? x, escapeDigits? x with
        | some y, _ => (doublePart? fuel rest).map (QuotedPart.cons y 2)
        | none, some count => do
            if rest.length < count then none
            let y ← hexChar? (rest.take count)
            let part ← doublePart? fuel (rest.drop count)
            return part.cons y (2 + count)
        | none, none => none
  | fuel + 1, x :: rest =>
      if x = '"' ∨ isGap x then some .empty
      else if x = '\\' then none
      else (doublePart? fuel rest).map (QuotedPart.cons x 1)

/-- The rest of a quoted scalar after the characters `done`, the last one first, given how its parts
are read. -/
def quotedRest? (quote : Char) (part? : List Char → Option QuotedPart) :
    Nat → List Char → Cursor → Option Scanned
  | 0, _, _ => none
  | fuel + 1, done, c =>
      if c.atDocumentMark ∨ c.atEnd then none
      else do
        let part ← part? c.rest
        let done := part.text.reverse ++ done
        let c := c.advance part.width
        if part.escapedBreak then
          let c := c.newline
          let (gap, c) ← gap? 0 (c.size + 1) .escaped c
          quotedRest? quote part? fuel (gap.text.reverse ++ done) c
        else if c.at? quote then some ⟨done.reverse, c.advance 1, false⟩
        else
          let (gap, c) ← gap? 0 (c.size + 1) .none c
          quotedRest? quote part? fuel (gap.text.reverse ++ done) c

/-- A single-quoted scalar; the cursor is after its opening quote. -/
def single? (c : Cursor) : Option Scanned :=
  quotedRest? '\'' (fun cs => some (singlePart cs)) (c.size + 1) [] c

/-- A double-quoted scalar; the cursor is after its opening quote. -/
def double? (c : Cursor) : Option Scanned :=
  quotedRest? '"' (doublePart? c.size) (c.size + 1) [] c

/-! ## Block scalars -/

/-- What happens to breaks at the end of a block scalar. -/
inductive Chomp where
  | strip
  | clip
  | keep
deriving DecidableEq

/-- Header of a block scalar: what happens at its end, and the width of its indentation, if
given. -/
structure BlockHeader where
  chomp : Chomp
  width : Option Nat

def chomp? : List Char → Option Chomp
  | '+' :: _ => some .keep
  | '-' :: _ => some .strip
  | _ => none

/-- Indentation indicator at the front; zero is a fault. -/
def width? : List Char → Option (Option Nat)
  | x :: _ =>
      if x = '0' then none
      else if x.isDigit then some (some (x.toNat - '0'.toNat))
      else some none
  | [] => some none

/-- The header of a block scalar: the two indicators in either order. -/
def header? (c : Cursor) : Option (BlockHeader × Cursor) :=
  match chomp? c.rest with
  | some chomp => do
      let c := c.advance 1
      match ← width? c.rest with
      | some n => return (⟨chomp, some n⟩, c.advance 1)
      | none => return (⟨chomp, none⟩, c)
  | none => do
      match ← width? c.rest with
      | some n =>
          let c := c.advance 1
          match chomp? c.rest with
          | some chomp => return (⟨chomp, some n⟩, c.advance 1)
          | none => return (⟨.clip, some n⟩, c)
      | none => return (⟨.clip, none⟩, c)

/-- Step over blanks, a comment and the break at the end of a line. -/
def lineEnd? (c : Cursor) : Option Cursor :=
  let c := c.skipWhile isBlank
  let c := if c.at? '#' then c.skipWhile fun x => !isBreak x else c
  if c.atEnd then some c else if c.atBreak then some c.newline else none

/-- Step over the indentation; while it is not known all blanks count. -/
def skipIndent (indent : Option Nat) (c : Cursor) : Cursor :=
  let blanks := (c.rest.takeWhile fun x => x == ' ').length
  match indent with
  | none => c.advance blanks
  | some n => c.advance (min blanks (n - c.column))

/-- Empty lines at the front: the text of their breaks, the deepest indentation met, and the cursor
at the first character that is none of theirs. -/
def emptyLines? (indent : Option Nat) :
    Nat → List Char → Nat → Cursor → Option (List Char × Nat × Cursor)
  | 0, breaks, deepest, c => some (breaks, deepest, c)
  | fuel + 1, breaks, deepest, c =>
      let c := skipIndent indent c
      let deepest := max deepest c.column
      if indent.all (fun n => c.column < n) ∧ c.at? '\t' then none
      else if c.atBreak then
        emptyLines? indent fuel (breaks ++ c.breakText) deepest c.newline
      else some (breaks, deepest, c)

/-- Lines of a block scalar read so far. -/
structure BlockLines where
  /-- Characters of the lines and of the breaks between them, the last one first. -/
  done : List Char
  /-- Break after the last line. -/
  last : List Char
  /-- Breaks of empty lines after it. -/
  empty : List Char
  /-- Whether the last line begins with a blank. -/
  indented : Bool

namespace BlockLines

/-- What the breaks before a further line stand for. -/
def gap (b : BlockLines) (literal indented : Bool) : List Char :=
  if !literal ∧ b.last = ['\n'] ∧ !b.indented ∧ !indented then
    (if b.empty.isEmpty then [' '] else []) ++ b.empty
  else b.last ++ b.empty

def finished (b : BlockLines) (chomp : Chomp) : List Char :=
  match chomp with
  | .strip => b.done.reverse
  | .clip => b.done.reverse ++ b.last
  | .keep => b.done.reverse ++ b.last ++ b.empty

end BlockLines

def blockLines? (literal : Bool) (indent : Nat) :
    Nat → BlockLines → Cursor → Option (BlockLines × Cursor)
  | 0, b, c => some (b, c)
  | fuel + 1, b, c =>
      if c.column = indent ∧ !c.atEnd then do
        let indented := c.rest.head?.any isBlank
        let line := c.rest.takeWhile fun x => !isBreak x
        let c := c.advance line.length
        let last := c.breakText
        let c := c.newline
        let done := (b.gap literal indented ++ line).reverse ++ b.done
        let (empty, _, after) ← emptyLines? (some indent) (c.size + 1) [] 0 c
        blockLines? literal indent fuel ⟨done, last, empty, indented⟩ after
      else some (b, c)

/-- A block scalar; the cursor is after its indicator, and the indentation is that of the collection
around it. -/
def block? (literal : Bool) (indent : Int) (c : Cursor) : Option Scanned := do
  let (header, c) ← header? c
  let c ← lineEnd? c
  let known := header.width.map fun n => (max indent 0).toNat + n
  let (empty, deepest, c) ← emptyLines? known (c.size + 1) [] 0 c
  let depth := known.getD (max deepest (max (indent + 1).toNat 1))
  let (lines, c) ← blockLines? literal depth (c.size + 1) ⟨[], [], empty, false⟩ c
  return ⟨lines.finished header.chomp, c, false⟩

end Yaml
end InfraGraph
