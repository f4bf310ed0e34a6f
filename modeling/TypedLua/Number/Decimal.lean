import TypedLua.Number.Binary64

/-!
# Decimal digits of a double

Two ways to choose the digits of a positive double `m · 2^q`.
-/

namespace TypedLua.Decimal

def roundDiv (num den : Nat) : Nat :=
  let quotient := num / den
  let rest := num % den
  if 2 * rest < den then quotient
  else if den < 2 * rest then quotient + 1
  else if quotient % 2 = 0 then quotient else quotient + 1

def digitCount (n : Nat) : Nat :=
  (Nat.toDigits 10 n).length

def exponentOf (num den : Nat) : Int :=
  let guess : Int := (digitCount num : Int) - digitCount den
  let reached :=
    if guess ≥ 0 then decide (den * Nat.pow 10 guess.toNat ≤ num)
    else decide (den ≤ num * Nat.pow 10 (-guess).toNat)
  if reached then guess else guess - 1

/-- A positive decimal number: `coefficient` has exactly `count` digits and the first of them
stands at `10^exponent`. -/
structure Digits where
  coefficient : Nat
  count : Nat
  exponent : Int
  deriving Repr

def Digits.chars (d : Digits) : List Char :=
  let cs := Nat.toDigits 10 d.coefficient
  List.replicate (d.count - cs.length) '0' ++ cs

def fraction (m : Nat) (q : Int) : Nat × Nat :=
  if q ≥ 0 then (m * Nat.pow 2 q.toNat, 1) else (m, Nat.pow 2 (-q).toNat)

def inUnits (num den : Nat) (unit : Int) : Nat × Nat :=
  if unit ≥ 0 then (num, den * Nat.pow 10 unit.toNat) else (num * Nat.pow 10 (-unit).toNat, den)

def roundedFraction (num den count : Nat) : Digits :=
  let e := exponentOf num den
  let (scaledNum, scaledDen) := inUnits num den (e - (count - 1 : Nat))
  let c := roundDiv scaledNum scaledDen
  if c = Nat.pow 10 count then ⟨Nat.pow 10 (count - 1), count, e + 1⟩ else ⟨c, count, e⟩

/-- The value `m · 2^q` to `count` significant digits, ties to even. -/
def rounded (m : Nat) (q : Int) (count : Nat) : Digits :=
  let (num, den) := fraction m q
  roundedFraction num den count

/-- The value `m · 2^q` in units of `10^(-places)`, rounded to the nearest, ties to even. -/
def roundedFixed (m : Nat) (q : Int) (places : Nat) : Nat :=
  let (num, den) := fraction m q
  roundDiv (num * Nat.pow 10 places) den

/-- The ends of the interval of reals that round to the double `m · 2^q`, in units of `2^(q-2)`. -/
def roundingInterval (m : Nat) (q : Int) : Nat × Nat :=
  (if m = Binary64.hiddenBit ∧ q > -1074 then 4 * m - 1 else 4 * m - 2, 4 * m + 2)

/-- The decimal `c · 10^unit` lies in the interval of reals that round to `m · 2^q`; the ends
belong to it if the significand is even. -/
def readsBack (m : Nat) (q : Int) (c : Nat) (unit : Int) : Bool :=
  let (low, high) := roundingInterval m q
  -- compare c · 10^unit with low and high times 2^(q-2), all scaled to integers
  let (lowNum, lowDen) := fraction low (q - 2)
  let (highNum, highDen) := fraction high (q - 2)
  let (cNum, cDen) := if unit ≥ 0 then (c * Nat.pow 10 unit.toNat, 1) else (c, Nat.pow 10 (-unit).toNat)
  if m % 2 = 0 then
    decide (lowNum * cDen ≤ cNum * lowDen) && decide (cNum * highDen ≤ highNum * cDen)
  else
    decide (lowNum * cDen < cNum * lowDen) && decide (cNum * highDen < highNum * cDen)

/-- The neighbour of `m · 2^q` on the grid of `count` digits that reads back, if one does. -/
def neighbour? (m : Nat) (q : Int) (e : Int) (count : Nat) : Option Digits :=
  let unit := e - (count - 1 : Nat)
  let (num, den) := fraction m q
  let (scaledNum, scaledDen) := inUnits num den unit
  let below := scaledNum / scaledDen
  let nearest := roundDiv scaledNum scaledDen
  let other := if nearest = below then below + 1 else below
  let pick := fun c =>
    if readsBack m q c unit then
      some (if c = Nat.pow 10 count then ⟨Nat.pow 10 (count - 1), count, e + 1⟩ else ⟨c, count, e⟩ : Digits)
    else none
  pick nearest <|> pick other

/-- The fewest digits from `count` on that read back as `m · 2^q`, within `steps` trials. -/
def shortestFrom (m : Nat) (q : Int) (e : Int) : (steps count : Nat) → Digits
  | 0, count => rounded m q count
  | steps + 1, count =>
    match neighbour? m q e count with
    | some d => d
    | none => shortestFrom m q e steps (count + 1)

/-- The fewest digits that read back as the double `m · 2^q`; seventeen always do. -/
def shortest (m : Nat) (q : Int) : Digits :=
  let (num, den) := fraction m q
  shortestFrom m q (exponentOf num den) 16 1

end TypedLua.Decimal
