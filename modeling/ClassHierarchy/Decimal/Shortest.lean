import ClassHierarchy.Decimal.Binary64

/-!
The shortest decimal that reads back as a given binary number, and of those the nearest. The
numbers that read back as `m * 2 ^ q` form an interval around it, whose ends belong to it when `m`
is even; grids of 1, 2, … digits are tried until one has a point in the interval.
-/

namespace ClassHierarchy

namespace Magnitude

structure Interval where
  low : Nat
  value : Nat
  high : Nat
  den : Nat
  closed : Bool

def interval (x : Magnitude) : Interval :=
  let narrow := x.m = Nat.pow 2 (significandBits - 1) ∧ leastExponent < x.q
  let times := fun n : Nat => if x.q < 2 then n else n * Nat.pow 2 (x.q - 2).natAbs
  { low := times (if narrow then 4 * x.m - 1 else 4 * x.m - 2)
    value := times (4 * x.m)
    high := times (4 * x.m + 2)
    den := if x.q < 2 then Nat.pow 2 (2 - x.q).natAbs else 1
    closed := x.m % 2 = 0 }

def Interval.contains (i : Interval) (num den : Nat) : Bool :=
  if i.closed then i.low * den ≤ num * i.den && num * i.den ≤ i.high * den
  else i.low * den < num * i.den && num * i.den < i.high * den

structure Decimal where
  digits : Nat
  exponent : Int
  deriving DecidableEq

def Decimal.num (d : Decimal) : Nat :=
  if d.exponent < 0 then d.digits else d.digits * Nat.pow 10 d.exponent.natAbs

def Decimal.den (d : Decimal) : Nat := if d.exponent < 0 then Nat.pow 10 d.exponent.natAbs else 1

def onGrid? (i : Interval) (k : Int) : Option Decimal :=
  let (num, den) :=
    if k < 0 then (i.value * Nat.pow 10 k.natAbs, i.den) else (i.value, i.den * Nat.pow 10 k.natAbs)
  let below : Decimal := ⟨num / den, k⟩
  let above : Decimal := ⟨num / den + 1, k⟩
  let fits := fun d : Decimal => d.digits ≠ 0 ∧ i.contains d.num d.den
  let lowerIsNearer := 2 * (num % den) < den
  if fits below ∧ (lowerIsNearer ∨ ¬ fits above) then some below
  else if fits above then some above
  else none

def decimalExponent (i : Interval) : Int :=
  if i.den ≤ i.value then (Nat.toDigits 10 (i.value / i.den)).length - 1
  else - ((Nat.toDigits 10 ((i.den - 1) / i.value)).length : Int)

def Decimal.trim (d : Decimal) : Decimal :=
  if d.digits % 10 = 0 then ⟨d.digits / 10, d.exponent + 1⟩ else d

def search (i : Interval) (top : Int) : Nat → Nat → Decimal
  | 0, _ => ⟨0, 0⟩
  | n + 1, digits =>
    match onGrid? i (top - digits + 1) with
    | some d => d.trim
    | none => search i top n (digits + 1)

def shortest (x : Magnitude) : Decimal :=
  if x.m = 0 then ⟨0, 0⟩
  else
    let i := x.interval
    search i (decimalExponent i) 17 1

end Magnitude

def Magnitude.Decimal.positional (d : Magnitude.Decimal) : List Char :=
  let digits := Nat.toDigits 10 d.digits
  if d.exponent < 0 then
    let places := d.exponent.natAbs
    let padded := List.replicate (places + 1 - digits.length) '0' ++ digits
    padded.take (padded.length - places) ++ '.' :: padded.drop (padded.length - places)
  else digits ++ List.replicate d.exponent.natAbs '0' ++ ['.', '0']

def Binary64.render : Binary64 → String
  | .finite negative x =>
    String.ofList ((if negative then ['-'] else []) ++ x.shortest.positional)
  | .infinite negative => if negative then "-inf" else "inf"
  | .nan => "NaN"

example : (Binary64.ofDecimal false 15 (-1)).render = "1.5" := by decide +kernel
example : (Binary64.ofDecimal false 1 (-1)).render = "0.1" := by decide +kernel
example : (Binary64.ofDecimal true 0 0).render = "-0.0" := by decide +kernel
example : (Binary64.ofDecimal false 1 (-7)).render = "0.0000001" := by decide +kernel
example : (Binary64.ofDecimal false 9007199254740993 0).render = "9007199254740992.0" := by
  decide +kernel

end ClassHierarchy
