import InfraGraph.Decimal.Shortest

/-!
# Layout — how the text of a double is laid out

The digits of a double are the shortest ones.  What remains is a matter of the format: which of two
equally near decimals is written, up to which size it is written positionally, and whether a whole
number shows a point.

* `Layout` — the decisions of a format;
* `Layout.text` — the text of a double under these decisions.
-/

namespace InfraGraph
namespace Decimal

/-- Decisions of a format that writes doubles. -/
structure Layout where
  /-- Which of two equally near shortest decimals is written, whatever the sign. -/
  tie : Tie
  /-- Whether a number is written positionally, given the place of its point after its first
  digit's left edge. -/
  positional : Int → Bool
  /-- Whether a whole number ends in `.0`. -/
  wholePoint : Bool
  /-- Text of a not-a-number. -/
  notANumber : String
  /-- Text of infinity. -/
  infinity : String

namespace Layout

def zeros (n : Int) : List Char := List.replicate n.toNat '0'

/-- Digits with the point at `place`, counted from the left edge of the first digit. -/
def positionalText (wholePoint : Bool) (digits : List Char) (place : Int) : List Char :=
  if place ≤ 0 then
    '0' :: '.' :: zeros (-place) ++ digits
  else if (digits.length : Int) ≤ place then
    digits ++ zeros (place - digits.length) ++ (if wholePoint then ['.', '0'] else [])
  else
    digits.take place.toNat ++ '.' :: digits.drop place.toNat

/-- Digits with the point after the first one and an exponent, which always shows its sign. -/
def exponentText (digits : List Char) (place : Int) : List Char :=
  let mantissa :=
    match digits with
    | d :: e :: rest => d :: '.' :: e :: rest
    | short => short
  let exponent := place - 1
  let sign := if exponent < 0 then '-' else '+'
  mantissa ++ 'e' :: sign :: (toString exponent.natAbs).toList

/-- Text of the magnitude of a finite double. -/
def magnitude (f : Layout) (x : Float) : List Char :=
  if x == 0.0 then
    if f.wholePoint then ['0', '.', '0'] else ['0']
  else
    let p := shortest f.tie x
    let digits := Nat.toDigits 10 p.digits
    let place := (digits.length : Int) + p.power
    if f.positional place then positionalText f.wholePoint digits place
    else exponentText digits place

def text (f : Layout) (x : Float) : String :=
  if x.isNaN then f.notANumber
  else
    let sign := if UInt64.size ≤ 2 * x.toBits.toNat then "-" else ""
    if x.isInf then sign ++ f.infinity else sign ++ String.ofList (f.magnitude x)

end Layout

/-- Every digit is written out, a whole number ends in `.0`, and a tie goes away from zero. -/
def writtenOut : Layout where
  tie := .up
  positional := fun _ => true
  wholePoint := true
  notANumber := "NaN"
  infinity := "inf"

/-- Positional from a hundred-thousandth up to sixteen digits before the point, and with an
exponent beyond.  A tie goes to the even digits. -/
def exponential : Layout where
  tie := .toEven
  positional := fun place => decide (-5 < place) && decide (place ≤ 16)
  wholePoint := true
  notANumber := "null"
  infinity := "null"

end Decimal
end InfraGraph
