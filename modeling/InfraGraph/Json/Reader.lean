import InfraGraph.Json.Source

/-!
# Reader — from JSON texts to trees

A text is one value between blanks.  Whole numbers that fit 64 bits are read exactly; all others
become doubles: the leading digits that fit 64 bits, scaled once by a power of ten.

* `Json.number`, `Json.unquoted`, `Source.value` — read a part of the text and return the rest,
  unless the text ceases to be well formed in this part;
* `Source.ofText` — the tree of a text with the rest behind it;
* `Json.isWellFormed` — whether there is nothing but the value.
-/

namespace InfraGraph
namespace Json

def isBlank (c : Char) : Bool := c = ' ' || c = '\n' || c = '\r' || c = '\t'

def skipBlanks (cs : List Char) : List Char := cs.dropWhile isBlank

/-! ## Numbers -/

def digitValue (c : Char) : Nat := c.toNat - '0'.toNat

/-- Largest whole number read exactly. -/
def maxWhole : Nat := UInt64.size - 1

def ofDigits (ds : List Char) : Nat := ds.foldl (fun n d => 10 * n + digitValue d) 0

/-- Significand of the whole digits that fit, with the count of digits that no longer do. -/
def wholePart (significand : Nat) : List Char → Nat × Nat
  | [] => (significand, 0)
  | d :: ds =>
      let next := significand * 10 + digitValue d
      if maxWhole < next then (significand, ds.length + 1) else wholePart next ds

/-- Significand extended by the decimals that fit, with their count. -/
def decimalPart (significand : Nat) : List Char → Nat × Nat
  | [] => (significand, 0)
  | d :: ds =>
      let next := significand * 10 + digitValue d
      if maxWhole < next then (significand, 0)
      else
        let (s, n) := decimalPart next ds
        (s, n + 1)

/-- The double nearest to a power of ten with an exponent up to 308. -/
def powerOfTen (n : Nat) : Float := Float.ofScientific 1 false n

/-- A significand times a power of ten; none beyond the largest double. -/
def scaled? (significand : Nat) (exponent : Int) : Option Float :=
  let f := Float.ofScientific significand false 0
  if significand = 0 then some 0.0
  else if 308 < exponent then none
  else if 0 ≤ exponent then
    let x := f * powerOfTen exponent.toNat
    if x.isInf then none else some x
  else if -308 ≤ exponent then some (f / powerOfTen (-exponent).toNat)
  else if -616 ≤ exponent then some (f / powerOfTen 308 / powerOfTen (-exponent - 308).toNat)
  else some 0.0

/-- Digits at the front of a text; at least one. -/
def digits? (cs : List Char) : Option (List Char × List Char) :=
  match cs.takeWhile Char.isDigit with
  | [] => none
  | d :: ds => some (d :: ds, cs.dropWhile Char.isDigit)

def decimals? : List Char → Option (Option (List Char) × List Char)
  | '.' :: cs => (digits? cs).map fun (ds, rest) => (some ds, rest)
  | cs => some (none, cs)

def exponent? : List Char → Option (Option Int × List Char)
  | c :: cs =>
      if c = 'e' ∨ c = 'E' then
        match cs with
        | '-' :: cs => (digits? cs).map fun (ds, rest) => (some (-(ofDigits ds : Int)), rest)
        | '+' :: cs => (digits? cs).map fun (ds, rest) => (some (ofDigits ds : Int), rest)
        | cs => (digits? cs).map fun (ds, rest) => (some (ofDigits ds : Int), rest)
      else some (none, c :: cs)
  | [] => some (none, [])

/-- The double of a sign, whole digits, decimals and an exponent. -/
def floatOf (negative : Bool) (whole : List Char) (decimals : List Char) (exponent : Int) :
    Source :=
  let (significand, dropped) := wholePart 0 whole
  let (significand, places) := decimalPart significand decimals
  match scaled? significand ((dropped : Int) - places + exponent) with
  | some x => .float (if negative then -x else x)
  | none => .fault .numberOutOfRange

/-- The number of a sign, whole digits, decimals and an exponent. -/
def numberOf (negative : Bool) (whole : List Char) (decimals : Option (List Char))
    (exponent : Option Int) : Source :=
  let n := ofDigits whole
  if decimals.isNone ∧ exponent.isNone ∧ ¬negative ∧ n ≤ maxWhole then .int n
  else if decimals.isNone ∧ exponent.isNone ∧ negative ∧ 0 < n ∧ Int64.minValue.toInt ≤ -n then
    .int (-n)
  else floatOf negative whole (decimals.getD []) (exponent.getD 0)

def number? (cs : List Char) : Option (Source × List Char) := do
  let negative := cs.head? = some '-'
  let (whole, rest) ← digits? (if negative then cs.drop 1 else cs)
  if whole.head? = some '0' ∧ 1 < whole.length then none
  let (decimals, rest) ← decimals? rest
  let (exponent, rest) ← exponent? rest
  return (numberOf negative whole decimals exponent, rest)

def number (cs : List Char) : Source × Option (List Char) :=
  match number? cs with
  | some (n, rest) => (n, some rest)
  | none => (.broken, none)

/-! ## Strings -/

def hexValue? (c : Char) : Option Nat :=
  if c.isDigit then some (c.toNat - '0'.toNat)
  else if 'a' ≤ c ∧ c ≤ 'f' then some (c.toNat - 'a'.toNat + 10)
  else if 'A' ≤ c ∧ c ≤ 'F' then some (c.toNat - 'A'.toNat + 10)
  else none

def hex4? : List Char → Option Nat
  | a :: b :: c :: d :: _ => do
      return (((← hexValue? a) * 16 + (← hexValue? b)) * 16 + (← hexValue? c)) * 16 +
        (← hexValue? d)
  | _ => none

def escape? (c : Char) : Option Char :=
  match c with
  | '"' => some '"'
  | '\\' => some '\\'
  | '/' => some '/'
  | 'b' => some '\x08'
  | 'f' => some '\x0c'
  | 'n' => some '\n'
  | 'r' => some '\r'
  | 't' => some '\t'
  | _ => none

/-- Whether a code unit is the first half of a surrogate pair. -/
def isHigh (unit : Nat) : Bool := 0xD800 ≤ unit && unit < 0xDC00

def isLow (unit : Nat) : Bool := 0xDC00 ≤ unit && unit < 0xE000

/-- Character of a pair of surrogates. -/
def pairChar (high low : Nat) : Char :=
  Char.ofNat (0x10000 + (high - 0xD800) * 0x400 + (low - 0xDC00))

/-- The character of the first half of a pair, given what follows it, and the number of characters
that the second half takes up. -/
def secondHalf (high : Nat) : List Char → Except Decode.Cause Char × Nat
  | '\\' :: 'u' :: rest =>
      match hex4? rest with
      | some low => if isLow low then (.ok (pairChar high low), 6) else (.error .unpairedUnit, 0)
      | none => (.error .malformed, 0)
  | [] => (.error .malformed, 0)
  | ['\\'] => (.error .malformed, 0)
  | _ => (.error .unfinishedPair, 0)

/-- The character of an escape, and the number of characters behind the backslash that it takes
up. -/
def escaped? : List Char → Option (Except Decode.Cause Char × Nat)
  | 'u' :: rest => do
      let unit ← hex4? rest
      if isLow unit then return (.error .unpairedUnit, 5)
      if isHigh unit then
        let (x, width) := secondHalf unit (rest.drop 4)
        return (x, 5 + width)
      return (.ok (Char.ofNat unit), 5)
  | c :: _ => (escape? c).map fun x => (.ok x, 1)
  | [] => none

/-- Characters of a quoted text with the rest behind it. -/
abbrev QuotedRest := Except Decode.Cause (List Char) × Option (List Char)

/-- Put a character in front; the first one without a meaning decides. -/
def QuotedRest.cons (x : Except Decode.Cause Char) (q : QuotedRest) : QuotedRest :=
  (do return (← x) :: (← q.1), q.2)

/-- Characters up to the closing quote, after the given number of characters. -/
def unquotedBody : Nat → List Char → QuotedRest
  | _, [] => (.error .malformed, none)
  | n + 1, _ :: rest => unquotedBody n rest
  | 0, c :: rest =>
      if c = '"' then (.ok [], some rest)
      else if c.toNat < 32 then (.error .malformed, none)
      else if c = '\\' then
        match escaped? rest with
        | some (x, width) => (unquotedBody width rest).cons x
        | none => (.error .malformed, none)
      else (unquotedBody 0 rest).cons (.ok c)

/-- A text behind its opening quote. -/
def unquoted (cs : List Char) : Except Decode.Cause String × Option (List Char) :=
  let (text, rest) := unquotedBody 0 cs
  (text.map String.ofList, rest)

/-! ## Values -/

/-- A word at the front of a text that stands for a value. -/
def word (text : String) (v : Source) (cs : List Char) : Source × Option (List Char) :=
  if text.toList.isPrefixOf cs then (v, some (cs.drop text.length)) else (.broken, none)

namespace Source

def ofQuoted : Except Decode.Cause String → Source
  | .ok s => str s
  | .error cause => fault cause

mutual

/-- A value at the front of a text, after blanks.  The fuel bounds the depth of the recursion; two
units for each character are enough. -/
def value : Nat → List Char → Source × Option (List Char)
  | 0, _ => (broken, none)
  | fuel + 1, cs =>
      match skipBlanks cs with
      | '"' :: rest =>
          let (s, rest) := unquoted rest
          (ofQuoted s, rest)
      | '[' :: rest =>
          match skipBlanks rest with
          | ']' :: rest => (arr [], some rest)
          | rest =>
              let (vs, rest) := items fuel rest
              (arr vs, rest)
      | '\x7b' :: rest =>
          match skipBlanks rest with
          | '\x7d' :: rest => (obj [], some rest)
          | rest =>
              let (ms, rest) := members fuel rest
              (obj ms, rest)
      | 't' :: rest => word "rue" (bool true) rest
      | 'f' :: rest => word "alse" (bool false) rest
      | 'n' :: rest => word "ull" null rest
      | cs => number cs

def items : Nat → List Char → List Source × Option (List Char)
  | 0, _ => ([broken], none)
  | fuel + 1, cs =>
      let (v, rest) := value fuel cs
      match rest.map skipBlanks with
      | some (']' :: rest) => ([v], some rest)
      | some (',' :: rest) =>
          let (vs, rest) := items fuel rest
          (v :: vs, rest)
      | _ => ([v, broken], none)

def memberValue : Nat → List Char → Source × Option (List Char)
  | 0, _ => (broken, none)
  | fuel + 1, cs =>
      match skipBlanks cs with
      | ':' :: rest => value fuel rest
      | _ => (broken, none)

def members : Nat → List Char → List (Except Decode.Cause String × Source) × Option (List Char)
  | 0, _ => ([brokenMember], none)
  | fuel + 1, cs =>
      match skipBlanks cs with
      | '"' :: rest =>
          match unquoted rest with
          | (key, some rest) =>
              let (v, rest) := memberValue fuel rest
              match rest.map skipBlanks with
              | some ('\x7d' :: rest) => ([(key, v)], some rest)
              | some (',' :: rest) =>
                  let (ms, rest) := members fuel rest
                  ((key, v) :: ms, rest)
              | _ => ([(key, v), brokenMember], none)
          | (key, none) => ([(key, broken)], none)
      | _ => ([brokenMember], none)

end

/-- The tree of a text, with the rest behind it unless it is not well formed. -/
def ofText (text : String) : Source × Option (List Char) :=
  let (v, rest) := value (2 * text.length + 2) text.toList
  (v, rest.map skipBlanks)

end Source

def isWellFormed (text : String) : Bool :=
  let (v, rest) := Source.ofText text
  v.isWhole && rest.any List.isEmpty

end Json
end InfraGraph
