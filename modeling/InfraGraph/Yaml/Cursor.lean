/-!
# Cursor — a place in a YAML text

Whether a text is well formed depends on columns and lines, so the rest of a text is carried along
with its place.

* `Yaml.isBlank`, `Yaml.isBreak`, `Yaml.isAllowed` — classes of characters;
* `Yaml.Cursor` — the rest of a text and its place;
* `Cursor.advance`, `Cursor.newline` — steps within a line and to the next line.
-/

namespace InfraGraph
namespace Yaml

/-! ## Characters -/

/-- Blanks within a line. -/
def isBlank (c : Char) : Bool := c == ' ' || c == '\t'

def isBreak (c : Char) : Bool :=
  c == '\n' || c == '\r' || c == '\x85' || c == '\u2028' || c == '\u2029'

/-- Characters that end a word. -/
def isGap (c : Char) : Bool := isBlank c || isBreak c

/-- Mark that may stand at the beginning of a line. -/
def byteOrderMark : Char := '\ufeff'

def isAllowed (c : Char) : Bool :=
  let n := c.toNat
  c == '\t' || c == '\n' || c == '\r' || n == 0x85 || (0x20 ≤ n && n ≤ 0x7E) ||
    (0xA0 ≤ n && n ≤ 0xD7FF) || (0xE000 ≤ n && n ≤ 0xFFFD) || 0x10000 ≤ n

/-- Whether a text begins with a blank or a break, or is at its end. -/
def startsWithGap : List Char → Bool
  | [] => true
  | c :: _ => isGap c

/-! ## Cursor -/

def byteCount (cs : List Char) : Nat := cs.foldl (fun n c => n + c.utf8Size) 0

/-- The rest of a text with its place. -/
structure Cursor where
  rest : List Char
  /-- Number of characters of the whole text.  No loop over the rest takes more steps. -/
  size : Nat
  /-- Bytes before the rest. -/
  index : Nat
  /-- Lines before the one the rest begins in. -/
  line : Nat
  /-- Characters of the line before the rest. -/
  column : Nat

namespace Cursor

def start (text : List Char) : Cursor := ⟨text, text.length, 0, 0, 0⟩

def next? (c : Cursor) : Option Char := c.rest.head?

def atEnd (c : Cursor) : Bool := c.rest.isEmpty

def atBreak (c : Cursor) : Bool := c.rest.head?.any isBreak

/-- Whether the next character is a blank or a break. -/
def atGap (c : Cursor) : Bool := c.rest.head?.any isGap

def at? (c : Cursor) (x : Char) : Bool := c.rest.head? == some x

def advance (c : Cursor) (n : Nat) : Cursor :=
  ⟨c.rest.drop n, c.size, c.index + byteCount (c.rest.take n), c.line, c.column + n⟩

/-- Step over the characters of the line at the front that satisfy `p`. -/
def skipWhile (c : Cursor) (p : Char → Bool) : Cursor := c.advance (c.rest.takeWhile p).length

def newline (c : Cursor) : Cursor :=
  match c.rest with
  | '\r' :: '\n' :: rest => ⟨rest, c.size, c.index + 2, c.line + 1, 0⟩
  | x :: rest => if isBreak x then ⟨rest, c.size, c.index + x.utf8Size, c.line + 1, 0⟩ else c
  | [] => c

/-- The beginning of the line after a last line that no break ends. -/
def lineEnded (c : Cursor) : Cursor :=
  if c.column = 0 then c else ⟨c.rest, c.size, c.index, c.line + 1, 0⟩

/-- Text that the break at the front, if there is one, stands for. -/
def breakText (c : Cursor) : List Char :=
  match c.rest with
  | x :: _ =>
      if x = '\u2028' ∨ x = '\u2029' then [x] else if isBreak x then ['\n'] else []
  | [] => []

/-- Whether a mark of three characters stands alone at the beginning of the line. -/
def atMark (c : Cursor) (x : Char) : Bool :=
  c.column == 0 && c.rest.take 3 == [x, x, x] && startsWithGap (c.rest.drop 3)

/-- Whether a mark that begins or ends a document stands at the front. -/
def atDocumentMark (c : Cursor) : Bool := c.atMark '-' || c.atMark '.'

end Cursor
end Yaml
end InfraGraph
