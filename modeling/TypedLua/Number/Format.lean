import TypedLua.Number.Decimal

/-!
# Written numbers

The texts in which doubles are written: the shortest form that reads back, the fixed, scientific
and general forms with a chosen precision, and the exact hexadecimal form.
-/

namespace TypedLua.Number

/-- The digits before and after the point when the first digit stands at `10^exponent`. -/
def splitPoint (digits : List Char) : Int → List Char × List Char
  | .ofNat n =>
    (digits.take (n + 1) ++ List.replicate (n + 1 - digits.length) '0', digits.drop (n + 1))
  | .negSucc n => (['0'], List.replicate n '0' ++ digits)

/-- The decimal exponent as written: a mark, a sign and at least two digits. -/
def exponentText (mark : Char) (exponent : Int) : List Char :=
  let digits := Nat.toDigits 10 exponent.natAbs
  mark :: (if exponent < 0 then '-' else '+') ::
    (List.replicate (2 - digits.length) '0' ++ digits)

def dropTrailingZeros (digits : List Char) : List Char :=
  (digits.reverse.dropWhile (· == '0')).reverse

/-- Digits with a point before the fraction; a fraction without digits has no point unless
`keepPoint` asks for it. -/
def withPoint (whole places : List Char) (keepPoint : Bool) : List Char :=
  if places.isEmpty && !keepPoint then whole else whole ++ '.' :: places

def specialText : Binary64 → List Char
  | .infinite _ => ['i', 'n', 'f']
  | _ => ['n', 'a', 'n']

/-- The magnitude of a double in the shortest form that reads back. -/
def shortestMagnitude (m : Nat) (q : Int) : List Char :=
  if m = 0 then ['0', '.', '0']
  else
    let d := Decimal.shortest m q
    let digits := dropTrailingZeros d.chars
    if -4 ≤ d.exponent ∧ d.exponent < 16 then
      let (whole, places) := splitPoint digits d.exponent
      whole ++ '.' :: (if places.isEmpty then ['0'] else places)
    else
      withPoint (digits.take 1) (digits.drop 1) false ++ exponentText 'e' d.exponent

def shortestText (x : Float) : String :=
  let shape := Binary64.decode x
  let magnitude :=
    match shape with
    | .finite _ m q => shortestMagnitude m q
    | other => specialText other
  let signed :=
    match shape with
    | .finite true .. | .infinite true => '-' :: magnitude
    | _ => magnitude
  String.ofList signed

inductive FloatStyle where
  | fixed
  | scientific
  | general
  deriving Repr, DecidableEq

def fixedMagnitude (m : Nat) (q : Int) (precision : Nat) (keepPoint : Bool) : List Char :=
  let digits := Nat.toDigits 10 (Decimal.roundedFixed m q precision)
  let padded := List.replicate (precision + 1 - digits.length) '0' ++ digits
  let wholeLength := padded.length - precision
  withPoint (padded.take wholeLength) (padded.drop wholeLength) keepPoint

/-- The digits of a magnitude to a number of significant digits; zero has the exponent zero. -/
def significantDigits (m : Nat) (q : Int) (count : Nat) : List Char × Int :=
  if m = 0 then (List.replicate count '0', 0)
  else
    let d := Decimal.rounded m q count
    (d.chars, d.exponent)

/-- The magnitude with `precision` places after the first digit, and an exponent. -/
def scientificMagnitude (m : Nat) (q : Int) (precision : Nat) (keepPoint : Bool) : List Char :=
  let (digits, exponent) := significantDigits m q (precision + 1)
  withPoint (digits.take 1) (digits.drop 1) keepPoint ++ exponentText 'e' exponent

def enoughDigits : Nat := 1000

/-- The magnitude to `precision` significant digits, scientific when the exponent is below -4 or not
below the precision. -/
def generalMagnitude (m : Nat) (q : Int) (precision : Nat) (keepPoint : Bool) : List Char :=
  let count := max (if keepPoint then precision else min precision enoughDigits) 1
  let (digits, exponent) := significantDigits m q count
  let trimmed := fun (cs : List Char) => if keepPoint then cs else dropTrailingZeros cs
  if -4 ≤ exponent ∧ exponent < count then
    let (whole, places) := splitPoint digits exponent
    withPoint whole (trimmed places) keepPoint
  else
    withPoint (digits.take 1) (trimmed (digits.drop 1)) keepPoint ++ exponentText 'e' exponent

def floatText (style : FloatStyle) (precision : Nat) (keepPoint : Bool) (x : Float) : String :=
  let shape := Binary64.decode x
  let magnitude :=
    match shape with
    | .finite _ m q =>
      match style with
      | .fixed => fixedMagnitude m q precision keepPoint
      | .scientific => scientificMagnitude m q precision keepPoint
      | .general => generalMagnitude m q precision keepPoint
    | other => specialText other
  let signed :=
    match shape with
    | .finite true .. | .infinite true => '-' :: magnitude
    | _ => magnitude
  String.ofList signed

/-- The exact hexadecimal form: thirteen hexadecimal places and a binary exponent. -/
def hexMagnitude (m : Nat) (q : Int) : List Char :=
  if m = 0 then ['0', 'x', '0', '.', '0', 'p', '+', '0']
  else
    let (lead, exponent) : Nat × Int := if m < Binary64.hiddenBit then (0, -1022) else (1, q + 52)
    let places := Nat.toDigits 16 (m % Binary64.hiddenBit)
    let padded := List.replicate (13 - places.length) '0' ++ places
    '0' :: 'x' :: Nat.digitChar lead :: '.' :: padded ++
      'p' :: (if exponent < 0 then '-' else '+') :: Nat.toDigits 10 exponent.natAbs

def hexText (x : Float) : String :=
  let shape := Binary64.decode x
  let magnitude :=
    match shape with
    | .finite _ m q => hexMagnitude m q
    | other => specialText other
  let signed :=
    match shape with
    | .finite true .. | .infinite true => '-' :: magnitude
    | _ => magnitude
  String.ofList signed

end TypedLua.Number
