/-!
# Double-precision numbers, exactly

A double is not-a-number, an infinity, or a signed multiple `m · 2^q` of a power of two.
-/

namespace TypedLua

inductive Binary64 where
  | nan
  | infinite (negative : Bool)
  /-- The number `m · 2^q`, negated if `negative`; zero keeps its sign. -/
  | finite (negative : Bool) (m : Nat) (q : Int)
  deriving Repr, DecidableEq

namespace Binary64

/-- The bit above the written digits of a significand, which leads all but the least doubles. -/
def hiddenBit : Nat :=
  Nat.pow 2 52

def signBit : Nat :=
  Nat.pow 2 63

def topExponent : Nat :=
  2047

def decode (x : Float) : Binary64 :=
  let bits := x.toBits.toNat
  let negative := decide (signBit ≤ bits)
  let exponent := bits / hiddenBit % (topExponent + 1)
  let fraction := bits % hiddenBit
  if exponent = topExponent then
    if fraction = 0 then infinite negative else nan
  else if exponent = 0 then finite negative fraction (-1074)
  else finite negative (hiddenBit + fraction) ((exponent : Int) - 1075)

/-- Assembles a double from a significand below `2^53` and an exponent that fits it: the significand
has 53 binary digits or the exponent is the least one. -/
def encode (negative : Bool) (m : Nat) (q : Int) : Float :=
  let sign := if negative then signBit else 0
  let magnitude := if m < hiddenBit then m else (q + 1075).toNat * hiddenBit + (m - hiddenBit)
  Float.ofBits (UInt64.ofNat (sign + magnitude))

/-- The double `m · 2^q`, for a value that a double can hold exactly. -/
def ofExact (negative : Bool) (m : Nat) (q : Int) : Float :=
  if m = 0 then encode negative 0 (-1074)
  else
    let width := m.log2 + 1
    -- exponent of the leading form, or the least exponent of a double
    let target := max (q + width - 53) (-1074)
    let scaled := if q ≥ target then m <<< (q - target).toNat else m >>> (target - q).toNat
    encode negative scaled target

/-- The double nearest to an integer, ties to even; beyond the range an infinity. -/
def ofInt (n : Int) : Float :=
  Float.ofInt n

def isFinite (x : Float) : Bool :=
  match decode x with
  | finite .. => true
  | _ => false

def isNaN (x : Float) : Bool :=
  match decode x with
  | nan => true
  | _ => false

def isInfinite (x : Float) : Bool :=
  match decode x with
  | infinite _ => true
  | _ => false

def isNegative (x : Float) : Bool :=
  decide (signBit ≤ x.toBits.toNat)

def copySign (x sign : Float) : Float :=
  let magnitude := x.toBits.toNat % signBit
  Float.ofBits (UInt64.ofNat (magnitude + if isNegative sign then signBit else 0))

def abs (x : Float) : Float :=
  Float.ofBits (UInt64.ofNat (x.toBits.toNat % signBit))

/-- The largest integer that is not above `m · 2^q`, negated first if `negative`. -/
def floorParts (negative : Bool) (m : Nat) (q : Int) : Int :=
  let signed : Int := if negative then -m else m
  if q ≥ 0 then signed * (Nat.pow 2 q.toNat : Nat) else signed.fdiv (Nat.pow 2 (-q).toNat : Nat)

def floor? (x : Float) : Option Int :=
  match decode x with
  | finite negative m q => some (floorParts negative m q)
  | _ => none

def ceil? (x : Float) : Option Int :=
  match decode x with
  | finite negative m q => some (-(floorParts (!negative) m q))
  | _ => none

def toInt? (x : Float) : Option Int :=
  match decode x with
  | finite negative m q =>
    if q ≥ 0 ∨ m % Nat.pow 2 (-q).toNat = 0 then some (floorParts negative m q) else none
  | _ => none

def truncate? (x : Float) : Option Int :=
  match decode x with
  | finite negative m q =>
    let magnitude := floorParts false m q
    some (if negative then -magnitude else magnitude)
  | _ => none

/-- The order between a double and an integer; none if the double is not a number. -/
def compareInt (x : Float) (n : Int) : Option Ordering :=
  match decode x with
  | nan => none
  | infinite negative => some (if negative then .lt else .gt)
  | finite negative m q =>
    let signed : Int := if negative then -m else m
    if q ≥ 0 then some (compare (signed * (Nat.pow 2 q.toNat : Nat)) n)
    else some (compare signed (n * (Nat.pow 2 (-q).toNat : Nat)))

/-- The remainder of the division that truncates: it has the sign of the dividend and is below the
divisor in magnitude. -/
def truncMod (x y : Float) : Float :=
  match decode x, decode y with
  | finite negative m q, finite _ n r =>
    if n = 0 then Float.ofBits 0x7ff8000000000000
    else
      let low := min q r
      let remainder := (m <<< (q - low).toNat) % (n <<< (r - low).toNat)
      ofExact negative remainder low
  | finite .., infinite _ => x
  | _, _ => Float.ofBits 0x7ff8000000000000

def notANumber : Float :=
  Float.ofBits 0x7ff8000000000000

def infinity : Float :=
  Float.ofBits 0x7ff0000000000000

end Binary64

end TypedLua
