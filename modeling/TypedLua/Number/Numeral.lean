import TypedLua.Number.Binary64
import TypedLua.Text.Blank
import TypedLua.Text.Digit

/-!
# Reading numerals

Text is read as a whole number in some base, or as a decimal number.
-/

namespace TypedLua.Numeral

/-- One character as the readers see it: decimal digits become ASCII, blanks become spaces, and any
other character beyond ASCII becomes a question mark, which no numeral holds. -/
def plainChar (c : Char) : Char :=
  if c.toNat < 128 then c
  else if Text.isBlank c then ' '
  else match Text.decimalValue? c with
    | some v => Nat.digitChar v
    | none => '?'

def isOuterBlank (c : Char) : Bool :=
  c == ' ' || (9 ≤ c.toNat && c.toNat ≤ 13)

def plain (cs : List Char) : List Char :=
  let plainChars := (cs.map plainChar).dropWhile isOuterBlank
  (plainChars.reverse.dropWhile isOuterBlank).reverse

def digitValue? (c : Char) : Option Nat :=
  if '0' ≤ c ∧ c ≤ '9' then some (c.toNat - '0'.toNat)
  else if 'a' ≤ c ∧ c ≤ 'z' then some (c.toNat - 'a'.toNat + 10)
  else if 'A' ≤ c ∧ c ≤ 'Z' then some (c.toNat - 'A'.toNat + 10)
  else none

/-- The number written by digits of a base, most significant first, continuing from `n`. -/
def natFrom (base n : Nat) : List Char → Option Nat
  | [] => some n
  | '_' :: c :: cs =>
    match digitValue? c with
    | some d => if d < base then natFrom base (n * base + d) cs else none
    | none => none
  | c :: cs =>
    match digitValue? c with
    | some d => if d < base then natFrom base (n * base + d) cs else none
    | none => none

def nat? (base : Nat) : List Char → Option Nat
  | [] => none
  | '_' :: _ => none
  | cs => natFrom base 0 cs

/-- The most digits of a numeral, unless its base is a power of two. -/
def digitLimit : Nat := 4300

def isUnlimited (base : Nat) : Bool :=
  base == 2 || base == 4 || base == 8 || base == 16 || base == 32

inductive Flaw where
  | malformed
  | tooLong (digits : Nat)
  deriving Repr, DecidableEq

def isDigitOf (base : Nat) (c : Char) : Bool :=
  (digitValue? c).any (· < base)

/-- The number of digits of a base at the front, continuing from `n`. -/
def leadingDigits? (base n : Nat) : List Char → Option Nat
  | [] => some n
  | ['_'] => none
  | '_' :: c :: cs => if isDigitOf base c then leadingDigits? base (n + 1) cs else none
  | c :: cs => if isDigitOf base c then leadingDigits? base (n + 1) cs else some n

def nat (base : Nat) : List Char → Except Flaw Nat
  | '_' :: _ => .error .malformed
  | cs =>
    match leadingDigits? base 0 cs with
    | none => .error .malformed
    | some count =>
      if !isUnlimited base && digitLimit < count then .error (.tooLong count)
      else match nat? base cs with
        | some n => .ok n
        | none => .error .malformed

def baseOfMark? (c : Char) : Option Nat :=
  match c with
  | 'x' | 'X' => some 16
  | 'o' | 'O' => some 8
  | 'b' | 'B' => some 2
  | _ => none

/-- Drops one underscore, which may stand between a base mark and the digits. -/
def dropUnderscore : List Char → List Char
  | '_' :: cs => cs
  | cs => cs

def unsigned (base : Nat) (cs : List Char) : Except Flaw Nat :=
  match base, cs with
  | 0, '0' :: mark :: rest =>
    match baseOfMark? mark with
    | some b => nat b (dropUnderscore rest)
    | none => do
      let n ← nat 10 cs
      if n = 0 then return n else throw .malformed
  | 0, _ => nat 10 cs
  | _, '0' :: mark :: rest =>
    if baseOfMark? mark = some base then nat base (dropUnderscore rest) else nat base cs
  | _, _ => nat base cs

/-- A whole number of a base from 2 to 36, or zero for the base that the numeral announces. -/
def int (base : Nat) (text : List Char) : Except Flaw Int :=
  match plain text with
  | '-' :: cs => (unsigned base cs).map fun n => -(n : Int)
  | '+' :: cs => (unsigned base cs).map fun n => (n : Int)
  | cs => (unsigned base cs).map fun n => (n : Int)

def int? (base : Nat) (text : List Char) : Option Int :=
  (int base text).toOption

/-- The text without underscores, if each of them stands between two digits; `before` is the
character read last. -/
def dropUnderscores? (before : Option Char) : List Char → Option (List Char)
  | [] => if before = some '_' then none else some []
  | c :: cs =>
    let digitBefore := before.any Char.isDigit
    if c = '_' then
      if digitBefore then dropUnderscores? (some c) cs else none
    else if before = some '_' && !c.isDigit then none
    else (dropUnderscores? (some c) cs).map (c :: ·)

def digitsAndRest (cs : List Char) : List Char × List Char :=
  (cs.takeWhile Char.isDigit, cs.dropWhile Char.isDigit)

def ofDigits (cs : List Char) : Nat :=
  cs.foldl (fun n c => 10 * n + (c.toNat - '0'.toNat)) 0

/-- The exponent that stands at the end of a decimal numeral; no exponent counts as zero. -/
def exponent? : List Char → Option Int
  | [] => some 0
  | mark :: cs =>
    if mark = 'e' || mark = 'E' then
      let (negative, digits) : Bool × List Char :=
        match cs with
        | '-' :: ds => (true, ds)
        | '+' :: ds => (false, ds)
        | ds => (false, ds)
      if !digits.isEmpty && digits.all Char.isDigit then
        some (if negative then -(ofDigits digits : Int) else ofDigits digits)
      else none
    else none

def ofScientific (m : Nat) (e : Int) : Float :=
  let magnitude : Int := e + (Nat.toDigits 10 m).length
  if m = 0 || magnitude < -400 then Float.ofBits 0
  else if magnitude > 400 then Binary64.infinity
  else if e ≥ 0 then Float.ofScientific m false e.toNat
  else Float.ofScientific m true (-e).toNat

/-- A decimal number without sign: digits with an optional point among or around them, and an
optional exponent; or the name of an infinity or of the undefined value. -/
def magnitude? (cs : List Char) : Option Float :=
  let name := String.ofList (cs.map Char.toLower)
  if name = "inf" || name = "infinity" then some Binary64.infinity
  else if name = "nan" then some Binary64.notANumber
  else
    let (whole, rest) := digitsAndRest cs
    let (places, tail) :=
      match rest with
      | '.' :: rest => digitsAndRest rest
      | rest => ([], rest)
    if whole.isEmpty && places.isEmpty then none
    else (exponent? tail).map fun e => ofScientific (ofDigits (whole ++ places)) (e - places.length)

def float? (text : List Char) : Option Float := do
  let cs ← dropUnderscores? none (plain text)
  match cs with
  | '-' :: rest => (magnitude? rest).map fun x => -x
  | '+' :: rest => magnitude? rest
  | _ => magnitude? cs

end TypedLua.Numeral
