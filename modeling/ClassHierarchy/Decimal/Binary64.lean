namespace ClassHierarchy

structure Magnitude where
  m : Nat
  q : Int
  deriving DecidableEq

inductive Binary64 where
  | finite (negative : Bool) (x : Magnitude)
  | infinite (negative : Bool)
  | nan
  deriving DecidableEq

namespace Magnitude

def significandBits : Nat := 53
def leastExponent : Int := -1074
def greatestExponent : Int := 971

def roundDiv (num den : Nat) : Nat :=
  let low := num / den
  let rest := num % den
  if 2 * rest < den then low
  else if den < 2 * rest then low + 1
  else low + low % 2

def scaled (num den : Nat) (q : Int) : Nat × Nat :=
  if q < 0 then (num * Nat.pow 2 q.natAbs, den) else (num, den * Nat.pow 2 q.natAbs)

def exponentFor (num den : Nat) : Int :=
  let guess : Int := (Nat.log2 num : Int) - Nat.log2 den - (significandBits - 1)
  let (n, d) := scaled num den guess
  let exact := if n < d * Nat.pow 2 (significandBits - 1) then guess - 1 else guess
  max exact leastExponent

def nearest? (num den : Nat) : Option Magnitude :=
  if num = 0 then some ⟨0, leastExponent⟩
  else
    let q := exponentFor num den
    let (n, d) := scaled num den q
    let m := roundDiv n d
    let x : Magnitude :=
      if m = Nat.pow 2 significandBits then ⟨Nat.pow 2 (significandBits - 1), q + 1⟩ else ⟨m, q⟩
    if greatestExponent < x.q then none else some x

def ofDecimal? (digits : Nat) (exponent : Int) : Option Magnitude :=
  let top : Int := (Nat.toDigits 10 digits).length + exponent
  if digits = 0 ∨ top < -330 then some ⟨0, leastExponent⟩
  else if 330 < top then none
  else if exponent < 0 then nearest? digits (Nat.pow 10 exponent.natAbs)
  else nearest? (digits * Nat.pow 10 exponent.natAbs) 1

end Magnitude

namespace Binary64

def ofDecimal (negative : Bool) (digits : Nat) (exponent : Int) : Binary64 :=
  (Magnitude.ofDecimal? digits exponent).elim (infinite negative) (finite negative)

end Binary64

end ClassHierarchy
