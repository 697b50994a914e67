import InfraGraph.Decode.Failure

/-!
# Scalar — what a plain scalar stands for

A plain scalar is null, a truth value, an integer, a floating point number or a text, in this order.
Integers may carry a sign, and a mark for base 16, 8 or 2; digits with needless zeros in front are a
text.

* `Yaml.isNullWord`, `Yaml.truth?`, `Yaml.natural?`, `Yaml.integer?`, `Yaml.float?` — the readings;
* `Yaml.plainFound` — the first one that fits.
-/

namespace InfraGraph
namespace Yaml

open Decode

/-- Words for null; nothing at all also stands for it. -/
def isNullWord (s : String) : Bool := ["", "~", "null", "Null", "NULL"].contains s

def truth? (s : String) : Option Bool :=
  if ["true", "True", "TRUE"].contains s then some true
  else if ["false", "False", "FALSE"].contains s then some false
  else none

/-! ## Integers -/

def digit? (base : Nat) (c : Char) : Option Nat :=
  let n? :=
    if c.isDigit then some (c.toNat - '0'.toNat)
    else if 'a' ≤ c ∧ c ≤ 'f' then some (c.toNat - 'a'.toNat + 10)
    else if 'A' ≤ c ∧ c ≤ 'F' then some (c.toNat - 'A'.toNat + 10)
    else none
  n?.filter fun n => n < base

/-- Value of digits in a base; there is at least one. -/
def digits? (base : Nat) (cs : List Char) : Option Nat :=
  if cs.isEmpty then none
  else cs.foldlM (fun n c => return n * base + (← digit? base c)) 0

/-- The characters after a sign, if there is one. -/
def afterSign (cs : List Char) : List Char :=
  match cs with
  | '+' :: rest => rest
  | '-' :: rest => rest
  | cs => cs

def hasNeedlessZero (cs : List Char) : Bool :=
  match afterSign cs with
  | '0' :: c :: rest => (c :: rest).all Char.isDigit
  | _ => false

/-- Base and digits of characters without a sign. -/
def baseAndDigits (cs : List Char) : Nat × List Char :=
  match cs with
  | '0' :: 'x' :: rest => (16, rest)
  | '0' :: 'o' :: rest => (8, rest)
  | '0' :: 'b' :: rest => (2, rest)
  | cs => (10, cs)

def magnitude? (cs : List Char) : Option Nat :=
  let (base, ds) := baseAndDigits cs
  digits? base ds

/-- A natural number, with or without a plus sign. -/
def natural? (s : String) : Option Nat :=
  let cs := s.toList
  match cs with
  | '-' :: _ => none
  | _ =>
      if hasNeedlessZero cs then none
      else magnitude? (if cs.head? = some '+' then cs.drop 1 else cs)

def integer? (s : String) : Option Int :=
  match s.toList with
  | '-' :: rest =>
      if hasNeedlessZero rest then none else (magnitude? rest).map fun n => -(n : Int)
  | _ => (natural? s).map Int.ofNat

/-! ## Floating point numbers -/

/-- Bound beyond which an exponent takes no more digits. -/
def exponentBound : Nat := 0x10000

/-- Value of the digits of an exponent.  It takes digits as long as it is below the bound, which no
exponent reaches that matters for a text of moderate length. -/
def exponentDigits? (cs : List Char) : Option Nat :=
  if cs.isEmpty then none
  else cs.foldlM (fun n c => do
    let d ← digit? 10 c
    return if n < exponentBound then n * 10 + d else n) 0

/-- The characters of an exponent: a sign and digits. -/
def exponent? (cs : List Char) : Option Int :=
  match cs with
  | '-' :: rest => (exponentDigits? rest).map fun n => -(n : Int)
  | '+' :: rest => (exponentDigits? rest).map Int.ofNat
  | cs => (exponentDigits? cs).map Int.ofNat

/-- The double nearest to digits times a power of ten, unless it is infinite. -/
def nearest? (digits : List Char) (power : Int) : Option Float := do
  let digits := digits.dropWhile fun c => c == '0'
  let n := (digits? 10 digits).getD 0
  if n = 0 then return 0.0
  let size := (digits.length : Int) + power
  if 400 < size then none
  if size < -400 then return 0.0
  let x := if 0 ≤ power then Float.ofScientific n false power.toNat
    else Float.ofScientific n true (-power).toNat
  if x.isInf then none else return x

/-- A decimal number without a sign: digits with or without a point, and with or without an
exponent. -/
def decimal? (cs : List Char) : Option Float := do
  let whole := cs.takeWhile Char.isDigit
  let rest := cs.dropWhile Char.isDigit
  let (decimals, rest) :=
    match rest with
    | '.' :: rest => (rest.takeWhile Char.isDigit, rest.dropWhile Char.isDigit)
    | rest => ([], rest)
  if whole.isEmpty ∧ decimals.isEmpty then none
  let exponent ← match rest with
    | [] => some 0
    | c :: rest => if c = 'e' ∨ c = 'E' then exponent? rest else none
  nearest? (whole ++ decimals) (exponent - decimals.length)

def float? (s : String) : Option Float :=
  if [".inf", ".Inf", ".INF", "+.inf", "+.Inf", "+.INF"].contains s then some (1.0 / 0.0)
  else if ["-.inf", "-.Inf", "-.INF"].contains s then some (-1.0 / 0.0)
  else if [".nan", ".NaN", ".NAN"].contains s then some (0.0 / 0.0)
  else
    match s.toList with
    | '-' :: rest => (decimal? rest).map fun x => -x
    | '+' :: rest => decimal? rest
    | cs => decimal? cs

/-! ## The first reading that fits -/

/-- Whether an integer fits into a number of bits, as a natural number or with a sign. -/
def fits (bits : Nat) (n : Int) : Bool :=
  -(Nat.pow 2 (bits - 1) : Int) ≤ n && n < (Nat.pow 2 bits : Int)

def plainFound (s : String) : Found :=
  if isNullWord s then .null
  else
    match truth? s, (integer? s).filter (fits 128) with
    | some b, _ => .bool b
    | none, some n => if fits 64 n then .integer n else .wideInteger n
    | none, none =>
        if hasNeedlessZero s.toList then .text s
        else
          match float? s with
          | some x => .float x
          | none => .text s

end Yaml
end InfraGraph
