/-!
# Double precision

A `Binary64` is a number of double precision that is finite and not negative. `Binary64.nearest?`
takes a fraction to the number of double precision next to it, and arithmetic is exact up to that
last step. `Binary64.shortest?` is the decimal of the fewest digits that reads back as the number.

Everything is whole-number arithmetic on fractions of a numerator and a denominator.
-/

namespace Bourse

/-- The number `mantissa · 2 ^ exponent`. The mantissa has 53 bits, or fewer at the least exponent;
zero has the exponent zero. -/
structure Binary64 where
  mantissa : Nat
  exponent : Int
deriving DecidableEq

/-- The fraction `n · base ^ e`. -/
def scaledFraction (n base : Nat) (e : Int) : Nat × Nat :=
  (n * Nat.pow base e.toNat, Nat.pow base (-e).toNat)

namespace Binary64

/-- A mantissa is below 2⁵³. -/
def mantissaBound : Nat := 9007199254740992

/-- The least exponent. -/
def minExponent : Int := -1074

/-- The greatest exponent. -/
def maxExponent : Int := 971

/-- The whole number next to a fraction, the even one of two that are equally near. -/
def roundHalfEven (num den : Nat) : Nat :=
  let q := num / den
  let r := num % den
  if 2 * r < den ∨ (2 * r = den ∧ q % 2 = 0) then q else q + 1

/-- The exponent at which a fraction has a mantissa of 53 bits. The lengths of numerator and
denominator leave two candidates. -/
def exponentOf (num den : Nat) : Int :=
  let e : Int := (num.log2 : Int) - den.log2 - 53
  let whole := (num <<< (-e).toNat) / (den <<< e.toNat)
  max minExponent (if whole < mantissaBound then e else e + 1)

/-- The number next to a fraction, if it is not too large. -/
def nearest? (num den : Nat) : Option Binary64 :=
  let e := exponentOf num den
  let m := roundHalfEven (num <<< (-e).toNat) (den <<< e.toNat)
  if m = 0 then some ⟨0, 0⟩
  else
    let f : Binary64 := if m < mantissaBound then ⟨m, e⟩ else ⟨mantissaBound / 2, e + 1⟩
    if f.exponent ≤ maxExponent then some f else none

/-- The number as a fraction. -/
def fraction (f : Binary64) : Nat × Nat := scaledFraction f.mantissa 2 f.exponent

/-- The product, rounded. -/
def mul? (a b : Binary64) : Option Binary64 :=
  nearest? (a.fraction.1 * b.fraction.1) (a.fraction.2 * b.fraction.2)

/-- The quotient, rounded. -/
def div? (a b : Binary64) : Option Binary64 :=
  nearest? (a.fraction.1 * b.fraction.2) (a.fraction.2 * b.fraction.1)

/-- The power of ten, rounded. -/
def tenPower? (n : Nat) : Option Binary64 := nearest? (Nat.pow 10 n) 1

/-- Multiplies by a power of ten in one step, if the power is in range. A quotient by a greater
power is taken in several steps, until nothing is left of it. -/
def timesTenPower? (f : Binary64) (e : Int) : Option Binary64 :=
  if e.natAbs ≤ 308 then
    (tenPower? e.natAbs).bind fun p => if 0 ≤ e then f.mul? p else f.div? p
  else if f.mantissa = 0 then
    some f
  else if 0 ≤ e then
    none
  else do
    let p ← tenPower? 308
    let g ← f.div? p
    timesTenPower? g (e + 308)
termination_by e.natAbs
decreasing_by omega

/-- The digits in front of a whole number that fit in 64 bits; each digit left out adds one to the
exponent. -/
def leadingDigits (n : Nat) (exponent : Int) : Nat × Int :=
  if n < UInt64.size then (n, exponent) else leadingDigits (n / 10) (exponent + 1)
termination_by n
decreasing_by
  have : 0 < UInt64.size := by decide
  omega

/-- Puts places behind a significand, up to the first with which it no longer fits in 64 bits; each
one takes one from the exponent. -/
def appendPlaces (n : Nat) (exponent : Int) : List (Fin 10) → Nat × Int
  | [] => (n, exponent)
  | d :: rest =>
    if n * 10 + d < UInt64.size then appendPlaces (n * 10 + d) (exponent - 1) rest
    else (n, exponent)

/-- Reads a whole number with places behind the point, times a power of ten. It is rounded once as
a significand and once again by the power of ten, so the result is near the number and not always
next to it. Places are read even where digits before the point were left out. -/
def ofDecimal? (whole : Nat) (places : List (Fin 10)) (exponent : Int) : Option Binary64 :=
  let (n, e) := leadingDigits whole exponent
  let (n, e) := appendPlaces n e places
  (nearest? n 1).bind (timesTenPower? · e)

/-- The number next to the decimal `c · 10 ^ k` is this one. -/
def Reads (f : Binary64) (c : Nat) (k : Int) : Prop :=
  let t := scaledFraction c 10 k
  nearest? t.1 t.2 = some f

instance (f : Binary64) (c : Nat) (k : Int) : Decidable (f.Reads c k) :=
  inferInstanceAs (Decidable (_ = _))

/-- The coefficient of the multiple of `10 ^ k` that reads as the number: of the two next to it
the nearer one, if that does, or else the other. -/
def coefficientAt? (f : Binary64) (k : Int) : Option Nat :=
  let unit := scaledFraction 1 10 k
  let num := f.fraction.1 * unit.2
  let den := f.fraction.2 * unit.1
  let below := num / den
  let candidates :=
    if 2 * num < (2 * below + 1) * den then [below, below + 1] else [below + 1, below]
  candidates.find? fun c => f.Reads c k

/-- The decimal of the fewest digits that reads as the number, by its coefficient and the power of
ten. The powers are tried downwards from one above the number. -/
def shortest? (f : Binary64) : Option (Nat × Int) :=
  let top : Int := (Nat.toDigits 10 (f.fraction.1 / f.fraction.2)).length
  (List.range 400).findSome? fun (i : Nat) => (f.coefficientAt? (top - i)).map (·, top - i)

/-- A coefficient that is found reads back as the number. -/
theorem reads_of_coefficientAt? {f : Binary64} {c : Nat} {k : Int}
    (h : f.coefficientAt? k = some c) : f.Reads c k := by
  simpa using List.find?_some h

/-- Writing a number by its shortest decimal loses nothing. -/
theorem reads_of_shortest? {f : Binary64} {c : Nat} {k : Int}
    (h : f.shortest? = some (c, k)) : f.Reads c k := by
  obtain ⟨i, -, hi⟩ := List.exists_of_findSome?_eq_some h
  obtain ⟨c', hc, he⟩ := Option.map_eq_some_iff.1 hi
  obtain ⟨rfl, rfl⟩ := Prod.mk.inj he
  exact reads_of_coefficientAt? hc

end Binary64

end Bourse
