/-!
# Shortest — the fewest decimal digits that read back as a double

A finite positive double is an integer mantissa times a power of two, and the reals that round to
it form an interval around it.  Its shortest decimal is found on grids of 1, 2, … 17 digits: the
first grid with a point in the interval wins, and of two such points the nearer one.  A double can
lie halfway between the two, and then it is up to the format which of them is taken.

* `Binary.ofFloat` — mantissa and exponent of a double;
* `Binary.rounds` — whether a decimal lies in the interval of reals that round to the double;
* `Tie` — which of two equally near decimals is taken;
* `shortest` — the digits and the power of ten of the shortest decimal.
-/

namespace InfraGraph
namespace Decimal

/-- Numerator and denominator of `units * base ^ power`. -/
def scaled (base units : Nat) (power : Int) : Nat × Nat :=
  if 0 ≤ power then (units * Nat.pow base power.toNat, 1)
  else (units, Nat.pow base (-power).toNat)

/-- The number `mantissa * 2 ^ exponent`. -/
structure Binary where
  mantissa : Nat
  exponent : Int

namespace Binary

/-- Leading bit of a mantissa, which is not stored. -/
def hidden : Nat := 0x10000000000000

def ofFloat (x : Float) : Binary :=
  let bits := x.toBits.toNat
  let biased : Nat := bits / hidden % 2048
  let fraction : Nat := bits % hidden
  if biased = 0 then ⟨fraction, -1074⟩ else ⟨fraction + hidden, (biased : Int) - 1075⟩

/-- Quarter units above and below the double up to which reals round to it: half a unit on either
side, and a quarter below a power of two, where the lower neighbour is nearer. -/
def below (b : Binary) : Nat :=
  if b.mantissa = hidden ∧ b.exponent ≠ -1074 then 1 else 2

/-- Numerator and denominator of `quarters * 2 ^ (exponent - 2)`. -/
def fraction (b : Binary) (quarters : Nat) : Nat × Nat :=
  scaled 2 quarters (b.exponent - 2)

end Binary

/-- A point `digits * 10 ^ power` of a decimal grid. -/
structure Point where
  digits : Nat
  power : Int
deriving DecidableEq

namespace Point

def fraction (p : Point) : Nat × Nat := scaled 10 p.digits p.power

def strip (p : Point) : Nat → Point
  | 0 => p
  | fuel + 1 =>
      if p.digits ≠ 0 ∧ p.digits % 10 = 0 then strip ⟨p.digits / 10, p.power + 1⟩ fuel else p

end Point

/-- Whether the fraction `a` is at most, or with `strict` below, the fraction `b`. -/
def fractionLe (strict : Bool) (a b : Nat × Nat) : Bool :=
  if strict then a.1 * b.2 < b.1 * a.2 else a.1 * b.2 ≤ b.1 * a.2

/-- Whether the point rounds to the double; an end of the interval counts for an even mantissa. -/
def Binary.rounds (b : Binary) (p : Point) : Bool :=
  let strict := b.mantissa % 2 = 1
  fractionLe strict (b.fraction (4 * b.mantissa - b.below)) p.fraction &&
    fractionLe strict p.fraction (b.fraction (4 * b.mantissa + 2))

def digitCount (n : Nat) : Nat := (Nat.toDigits 10 n).length

/-- Power of ten of the leading digit of a positive fraction. -/
def leadingPower (v : Nat × Nat) : Int :=
  (digitCount (v.1 * Nat.pow 10 400 / v.2) : Int) - 401

/-- Distance of two fractions over the product of their denominators. -/
def distance (a b : Nat × Nat) : Nat :=
  (a.1 * b.2 - b.1 * a.2) + (b.1 * a.2 - a.1 * b.2)

/-- Which of two neighbours on a grid is taken for a double halfway between them. -/
inductive Tie where
  /-- The one with even digits. -/
  | toEven
  /-- The upper one. -/
  | up
deriving DecidableEq

/-- Whether the lower one of two equally near neighbours is taken, given its digits. -/
def Tie.takesLower (tie : Tie) (digits : Nat) : Bool :=
  match tie with
  | .toEven => digits % 2 = 0
  | .up => false

/-- The grid point with `count` digits that rounds to the double, and the nearer one of two. -/
def onGrid? (tie : Tie) (b : Binary) (count : Nat) : Option Point :=
  let v := b.fraction (4 * b.mantissa)
  let power := leadingPower v - ((count : Int) - 1)
  let unit := scaled 10 1 power
  let low := v.1 * unit.2 / (v.2 * unit.1)
  let lower : Point := ⟨low, power⟩
  let upper : Point := ⟨low + 1, power⟩
  match b.rounds lower, b.rounds upper with
  | true, true =>
      let dl := distance lower.fraction v
      let du := distance upper.fraction v
      some (if dl < du ∨ (dl = du ∧ tie.takesLower low) then lower else upper)
  | true, false => some lower
  | false, true => some upper
  | false, false => none

/-- Digits and power of ten of the shortest decimal of a finite double other than zero. -/
def shortest (tie : Tie) (x : Float) : Point :=
  let b := Binary.ofFloat x
  match (List.range 17).findSome? fun n => onGrid? tie b (n + 1) with
  | some p => p.strip 20
  | none => ⟨0, 0⟩

end Decimal
end InfraGraph
