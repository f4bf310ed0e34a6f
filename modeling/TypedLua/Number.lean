import TypedLua.Number.Format
import TypedLua.Number.Numeral
import TypedLua.Text.Quoted

/-!
# Numbers

A number is an integer of any size or a double.
-/

namespace TypedLua

inductive Number where
  | int (n : Int)
  | float (x : Float)
  deriving Repr, DecidableEq, Inhabited

namespace Number

inductive ArithError where
  | tooLarge
  | quotientByZero
  | remainderByZero
  deriving Repr, DecidableEq

def toFloat : Number → Except ArithError Float
  | float x => .ok x
  | int n =>
    let x := Binary64.ofInt n
    if Binary64.isInfinite x then .error .tooLarge else .ok x

def lift (onInt : Int → Int → Int) (onFloat : Float → Float → Float) :
    Number → Number → Except ArithError Number
  | int a, int b => .ok (int (onInt a b))
  | a, b => do
    let x ← a.toFloat
    let y ← b.toFloat
    return float (onFloat x y)

def add : Number → Number → Except ArithError Number :=
  lift (· + ·) (· + ·)

def sub : Number → Number → Except ArithError Number :=
  lift (· - ·) (· - ·)

def mul : Number → Number → Except ArithError Number :=
  lift (· * ·) (· * ·)

/-- The quotient of doubles; division of zero by zero is undefined, of anything else by zero
infinite with the sign of both operands. -/
def divFloat (x y : Float) : Float :=
  if y == 0 then
    if x == 0 || Binary64.isNaN x then Binary64.notANumber
    else Binary64.copySign Binary64.infinity x * Binary64.copySign 1 y
  else x / y

def div (a b : Number) : Except ArithError Float := do
  let x ← a.toFloat
  let y ← b.toFloat
  return divFloat x y

def idiv : Number → Number → Except ArithError Number
  | int a, int b => if b = 0 then .error .quotientByZero else .ok (int (a.fdiv b))
  | a, b => do
    let quotient ← div a b
    match Binary64.floor? quotient with
    | some n => return float (Binary64.ofInt n)
    | none => return float quotient

def modFloat (x y : Float) : Float :=
  let r := Binary64.truncMod x y
  if r == 0 then Binary64.copySign 0 y
  else if Binary64.isNaN r then r
  else if decide (y < 0) != decide (r < 0) then r + y else r

def isZero : Number → Bool
  | int n => n == 0
  | float x => x == 0

def mod : Number → Number → Except ArithError Number
  | int a, int b => if b = 0 then .error .remainderByZero else .ok (int (a.fmod b))
  | a, b =>
    if b.isZero then .ok (float Binary64.notANumber)
    else do
      let x ← a.toFloat
      let y ← b.toFloat
      return float (modFloat x y)

def powFloat (x y : Float) : Float :=
  let r := Float.pow x y
  if Binary64.isFinite x && Binary64.isFinite y then
    if Binary64.isNaN r then Binary64.notANumber
    else if Binary64.isInfinite r then
      if x == 0 then Binary64.notANumber else Binary64.infinity
    else r
  else r

def pow (a b : Number) : Except ArithError Float := do
  let x ← a.toFloat
  let y ← b.toFloat
  return powFloat x y

def neg : Number → Number
  | int n => int (-n)
  | float x => float (-x)

def abs : Number → Number
  | int n => int n.natAbs
  | float x => float (Binary64.abs x)

def compare? : Number → Number → Option Ordering
  | int a, int b => some (compare a b)
  | float x, float y =>
    if x < y then some .lt else if x == y then some .eq else if y < x then some .gt else none
  | float x, int b => Binary64.compareInt x b
  | int a, float y => (Binary64.compareInt y a).map Ordering.swap

def lt (a b : Number) : Bool :=
  compare? a b == some .lt

def le (a b : Number) : Bool :=
  match compare? a b with
  | some .lt | some .eq => true
  | _ => false

def eq (a b : Number) : Bool :=
  compare? a b == some .eq

def toInt? : Number → Option Int
  | int n => some n
  | float x => Binary64.toInt? x

/-- The text of a double: fourteen significant digits, and a whole number keeps `.0`. -/
def textOfFloat (x : Float) : String :=
  let text := floatText .general 14 false x
  if Binary64.isFinite x && text.toList.all (fun c => c == '-' || c.isDigit) then text ++ ".0"
  else if Binary64.isNaN x then "nan"
  else text

def textOfInt (n : Int) : String :=
  let digits := String.ofList (Nat.toDigits 10 n.natAbs)
  if n < 0 then "-" ++ digits else digits

def text : Number → String
  | int n => textOfInt n
  | float x => textOfFloat x

def exactText : Number → String
  | int n => textOfInt n
  | float x => shortestText x

/-- The least magnitude of integers that have too many digits to be written. -/
def unwritableFrom : Nat :=
  Nat.pow 10 Numeral.digitLimit

/-- The number can be written as text; an integer may have too many digits for that. -/
def isWritable : Number → Bool
  | int n => n.natAbs < unwritableFrom
  | float _ => true

inductive TextError where
  /-- Digits that write no integer, because one of them has no place in the decimal system. -/
  | whole (text : String)
  /-- Digits around a point or with an exponent, of which one has no place in the decimal system. -/
  | fraction (text : String)
  | tooLong (digits : Nat)
  | unwritable
  deriving Repr, DecidableEq

def TextError.message : TextError → String
  | whole text =>
    "invalid literal for int() with base 10: " ++ String.ofList ((Text.quote text).toList.take 200)
  | fraction text => "could not convert string to float: " ++ Text.quote text
  | tooLong digits => limitText ++ s!": value has {digits} digits" ++ remedy
  | unwritable => limitText ++ remedy
where
  limitText : String :=
    s!"Exceeds the limit ({Numeral.digitLimit} digits) for integer string conversion"
  remedy : String := "; use sys.set_int_max_str_digits() to increase the limit"

/-- The number that a text writes: a hexadecimal integer, a decimal number if a point, an exponent
or a name occurs, and else a decimal integer. -/
def ofText? (s : String) : Option Number :=
  let cs := Text.trim s.toList
  let low := cs.map Char.toLower
  if ['0', 'x'].isPrefixOf low || ['-', '0', 'x'].isPrefixOf low then
    (Numeral.int? 16 cs).map int
  else if cs.any (fun c => c == '.' || c == 'e' || c == 'E' || c == 'n' || c == 'N') then
    match Numeral.float? cs with
    | some x => if Binary64.isFinite x then some (float x) else none
    | none => none
  else (Numeral.int? 10 cs).map int

end Number

end TypedLua
