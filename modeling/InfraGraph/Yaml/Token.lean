import InfraGraph.Yaml.Folding

/-!
# Token — the tokens of a YAML text

Indentation and the colons after keys are turned into tokens of their own.  A scalar, an alias or a
collection in brackets may turn out to be a key only when a colon follows it, so places where a key
can begin are remembered, and the token that announces it is put in afterwards.  Such a key has to
be followed by its colon on the same line and within 1024 bytes.

* `Yaml.Token` — the tokens;
* `Yaml.Lexer` — what is known while a text is read;
* `Token.ofText` — the tokens of a text, up to its end or to the first fault.

Tags and directives are not part of the texts that are read here; they count as faults.
-/

namespace InfraGraph
namespace Yaml

inductive Token where
  | documentStart
  | documentEnd
  | streamEnd
  | blockSequenceStart
  | blockMappingStart
  | blockEnd
  | flowSequenceStart
  | flowSequenceEnd
  | flowMappingStart
  | flowMappingEnd
  | blockEntry
  | flowEntry
  | key
  | value
  | aliasOf (name : String)
  | anchor (name : String)
  | scalar (plain : Bool) (text : String)
deriving DecidableEq

/-! ## State -/

/-- A place where a key may begin. -/
structure KeyPlace where
  /-- Number of brackets open there. -/
  depth : Nat
  /-- Number of tokens before it. -/
  position : Nat
  index : Nat
  line : Nat
  column : Nat
  /-- Whether nothing but a key can stand there. -/
  required : Bool

/-- What is known while a text is read. -/
structure Lexer where
  cursor : Cursor
  /-- Tokens, the last one first. -/
  tokens : List Token
  /-- Number of tokens. -/
  count : Nat
  /-- Indentation of the innermost block collection; -1 outside all of them. -/
  indent : Int
  /-- Indentations of the collections around it. -/
  outer : List Int
  /-- Number of open brackets. -/
  depth : Nat
  /-- Places where a key may still begin, the last one first; at most one for each number of open
  brackets. -/
  places : List KeyPlace
  /-- Whether a key may begin at the cursor. -/
  keyAllowed : Bool

namespace Lexer

def start (text : List Char) : Lexer := ⟨.start text, [], 0, -1, [], 0, [], true⟩

def inBrackets (l : Lexer) : Bool := l.depth != 0

def moveTo (l : Lexer) (c : Cursor) : Lexer := { l with cursor := c }

def push (l : Lexer) (t : Token) : Lexer :=
  { l with tokens := t :: l.tokens, count := l.count + 1 }

def insert (l : Lexer) (position : Nat) (t : Token) : Lexer :=
  { l with tokens := l.tokens.insertIdx (l.count - position) t, count := l.count + 1 }

/-- Add a token that takes up a number of characters. -/
def take (l : Lexer) (width : Nat) (t : Token) : Lexer := (l.moveTo (l.cursor.advance width)).push t

/-- Whether a key may begin at the cursor from now on. -/
def allowKey (l : Lexer) (allowed : Bool) : Lexer := { l with keyAllowed := allowed }

/-! ## Places of keys -/

/-- Place of a key with as many brackets open as at the cursor, and the other places. -/
def currentPlace? (l : Lexer) : Option (KeyPlace × List KeyPlace) :=
  match l.places with
  | place :: rest => if place.depth = l.depth then some (place, rest) else none
  | [] => none

/-- Forget the current place of a key; it is a fault if nothing but a key can stand there. -/
def forgetPlace? (l : Lexer) : Option Lexer :=
  match l.currentPlace? with
  | some (place, rest) => if place.required then none else some { l with places := rest }
  | none => some l

/-- Remember the cursor as the place of a key, if a key may begin there. -/
def savePlace? (l : Lexer) : Option Lexer :=
  if l.keyAllowed then do
    let c := l.cursor
    let required := !l.inBrackets && l.indent == (c.column : Int)
    let place : KeyPlace := ⟨l.depth, l.count, c.index, c.line, c.column, required⟩
    let l ← l.forgetPlace?
    return { l with places := place :: l.places }
  else some l

/-- Whether a place is too far back for its key. -/
def isStale (l : Lexer) (place : KeyPlace) : Bool :=
  place.line < l.cursor.line || place.index + 1024 < l.cursor.index

/-- Forget places that are too far back; it is a fault if nothing but a key can stand at one of
them. -/
def dropStale? (l : Lexer) : Option Lexer :=
  if !l.places.any l.isStale then some l
  else if l.places.any fun place => place.required && l.isStale place then none
  else some { l with places := l.places.filter fun place => !l.isStale place }

/-! ## Indentation -/

/-- Begin a block collection at a column right of the one around it. -/
def roll (l : Lexer) (column position : Nat) (t : Token) : Lexer :=
  if !l.inBrackets ∧ l.indent < (column : Int) then
    { (l.insert position t) with indent := column, outer := l.indent :: l.outer }
  else l

/-- End block collections right of a column, given the indentations around them. -/
def unrollFrom (column : Int) : List Int → Lexer → Lexer
  | [], l => l
  | indent :: outer, l =>
      if column < l.indent then
        unrollFrom column outer { l.push .blockEnd with indent := indent, outer := outer }
      else l

def unroll (l : Lexer) (column : Int) : Lexer :=
  if l.inBrackets then l else unrollFrom column l.outer l

/-! ## Gaps between tokens -/

/-- Step over blanks, comments, breaks, and byte order marks at the beginning of a line.  A tab is
no indentation, so it stands in the way where a key may begin. -/
def skipGap : Nat → Lexer → Lexer
  | 0, l => l
  | fuel + 1, l =>
      let tabs := l.inBrackets || !l.keyAllowed
      let c := l.cursor
      let c := if c.column = 0 ∧ c.at? byteOrderMark then c.advance 1 else c
      let c := c.skipWhile fun x => x == ' ' || (tabs && x == '\t')
      let c := if c.at? '#' then c.skipWhile fun x => !isBreak x else c
      if c.atBreak then
        skipGap fuel ((l.moveTo c.newline).allowKey (l.keyAllowed || !l.inBrackets))
      else l.moveTo c

/-! ## Tokens -/

def documentMark? (l : Lexer) (t : Token) : Option Lexer := do
  let l ← (l.unroll (-1)).forgetPlace?
  return (l.allowKey false).take 3 t

def openBracket? (l : Lexer) (t : Token) : Option Lexer := do
  let l ← l.savePlace?
  return ({ l with depth := l.depth + 1 }.allowKey true).take 1 t

def closeBracket? (l : Lexer) (t : Token) : Option Lexer := do
  let l ← l.forgetPlace?
  return ({ l with depth := l.depth - 1 }.allowKey false).take 1 t

def comma? (l : Lexer) : Option Lexer := do
  return ((← l.forgetPlace?).allowKey true).take 1 .flowEntry

def dash? (l : Lexer) : Option Lexer := do
  if !l.inBrackets ∧ !l.keyAllowed then none
  let l := l.roll l.cursor.column l.count .blockSequenceStart
  return ((← l.forgetPlace?).allowKey true).take 1 .blockEntry

def keyMark? (l : Lexer) : Option Lexer := do
  if !l.inBrackets ∧ !l.keyAllowed then none
  let l := l.roll l.cursor.column l.count .blockMappingStart
  return ((← l.forgetPlace?).allowKey !l.inBrackets).take 1 .key

/-- Colon after a key, or before a value whose key is empty. -/
def colon? (l : Lexer) : Option Lexer :=
  match l.currentPlace? with
  | some (place, rest) =>
      let l := (l.insert place.position .key).roll place.column place.position .blockMappingStart
      some (({ l with places := rest }.allowKey false).take 1 .value)
  | none =>
      if !l.inBrackets ∧ !l.keyAllowed then none
      else
        let l := l.roll l.cursor.column l.count .blockMappingStart
        some ((l.allowKey !l.inBrackets).take 1 .value)

def isNameChar (x : Char) : Bool := x.isAlphanum || x == '_' || x == '-'

/-- Characters that may follow the name of an anchor without a blank. -/
def endsName (cs : List Char) : Bool :=
  startsWithGap cs || cs.head?.any fun x => x ∈ ['?', ':', ',', ']', '}', '%', '@', '\x60']

def name? (l : Lexer) (t : String → Token) : Option Lexer := do
  let l ← l.savePlace?
  let name := (l.cursor.rest.drop 1).takeWhile isNameChar
  if name.isEmpty ∨ !endsName (l.cursor.rest.drop (1 + name.length)) then none
  return (l.allowKey false).take (1 + name.length) (t (String.ofList name))

def addScalar (l : Lexer) (plain : Bool) (s : Scanned) : Lexer :=
  (l.moveTo s.cursor).push (.scalar plain (String.ofList s.text))

def blockScalar? (l : Lexer) (literal : Bool) : Option Lexer := do
  let l ← l.forgetPlace?
  return (l.allowKey true).addScalar false (← block? literal l.indent (l.cursor.advance 1))

def quotedScalar? (l : Lexer) (read? : Cursor → Option Scanned) : Option Lexer := do
  let l ← l.savePlace?
  return (l.allowKey false).addScalar false (← read? (l.cursor.advance 1))

def plainScalar? (l : Lexer) : Option Lexer := do
  let l ← l.savePlace?
  let s ← plain? l.inBrackets l.indent l.cursor
  return (l.allowKey s.broken).addScalar true s

/-- Characters that no plain scalar begins with, whatever follows. -/
def isIndicator (x : Char) : Bool :=
  x ∈ ['-', '?', ':', ',', '[', ']', '{', '}', '#', '&', '*', '!', '|', '>', '\'', '"', '%', '@',
    '\x60']

def startsPlain (inBrackets : Bool) : List Char → Bool
  | [] => false
  | x :: rest =>
      !(isGap x || isIndicator x) || (x == '-' && !rest.head?.any isBlank) ||
        (!inBrackets && (x == '?' || x == ':') && !startsWithGap rest)

def token? (l : Lexer) (x : Char) (rest : List Char) : Option Lexer :=
  let gapFollows := startsWithGap rest
  if l.cursor.column = 0 ∧ x = '%' then none
  else if l.cursor.atMark '-' then l.documentMark? .documentStart
  else if l.cursor.atMark '.' then l.documentMark? .documentEnd
  else if x = '[' then l.openBracket? .flowSequenceStart
  else if x = '{' then l.openBracket? .flowMappingStart
  else if x = ']' then l.closeBracket? .flowSequenceEnd
  else if x = '}' then l.closeBracket? .flowMappingEnd
  else if x = ',' then l.comma?
  else if x = '-' ∧ gapFollows then l.dash?
  else if x = '?' ∧ (l.inBrackets ∨ gapFollows) then l.keyMark?
  else if x = ':' ∧ (l.inBrackets ∨ gapFollows) then l.colon?
  else if x = '*' then l.name? .aliasOf
  else if x = '&' then l.name? .anchor
  else if x = '!' then none
  else if x = '|' ∧ !l.inBrackets then l.blockScalar? true
  else if x = '>' ∧ !l.inBrackets then l.blockScalar? false
  else if x = '\'' then l.quotedScalar? single?
  else if x = '"' then l.quotedScalar? double?
  else if startsPlain l.inBrackets (x :: rest) then l.plainScalar?
  else none

/-- End of the text, which also ends its last line. -/
def finish? (l : Lexer) : Option Lexer := do
  let l ← (l.unroll (-1)).forgetPlace?
  return (l.moveTo l.cursor.lineEnded).push .streamEnd

def fetch? (l : Lexer) : Option Lexer := do
  let l ← (skipGap (l.cursor.size + 1) l).dropStale?
  let l := l.unroll l.cursor.column
  let l ← match l.cursor.rest with
    | [] => l.finish?
    | x :: rest => l.token? x rest
  l.dropStale?

def isFinished (l : Lexer) : Bool := l.tokens.head? == some .streamEnd

/-- Number of tokens before the first place where a key may still begin. -/
def settledCount (l : Lexer) : Nat :=
  (l.places.map KeyPlace.position).foldl min l.count

/-- Tokens before the first place where a key may still begin.  No token will be put in between
them. -/
def settled (l : Lexer) : List Token := (l.tokens.drop (l.count - l.settledCount)).reverse

/-- Read tokens up to the end of the text.  Where the next one cannot be read, the tokens are those
that are settled before it; the end of the text is not among them. -/
def run : Nat → Lexer → List Token
  | 0, l => l.settled
  | fuel + 1, l =>
      match l.fetch? with
      | none => l.settled
      | some next => if next.isFinished then next.tokens.reverse else run fuel next

end Lexer

/-- Tokens of a text up to its end or to the first fault; none if it holds a character that cannot
occur in a text. -/
def Token.ofText (text : String) : List Token :=
  let cs := text.toList
  if cs.all isAllowed then Lexer.run (cs.length + 1) (.start cs) else []

end Yaml
end InfraGraph
