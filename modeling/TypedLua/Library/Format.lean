import TypedLua.Library.Argument
import TypedLua.Library.Directive

/-!
# Formatting values

A directive lays a value out in a field.
-/

namespace TypedLua.Library

structure FieldLayout where
  left : Bool
  plus : Bool
  blank : Bool
  alternate : Bool
  zero : Bool
  width : Nat
  precision : Option Nat
  deriving Repr, DecidableEq

def largestPrecision : Nat := 2147483647

def largestIntegerPrecision : Nat := 2147483644

/-- The number that digits write, if it is within a limit and all digits are of ASCII. -/
def fieldNumber (limit : Nat) (tooBig : Trap) (index n : Nat) : List Char → Except Trap Nat
  | [] => .ok n
  | c :: cs =>
    if c.isDigit then
      let m := 10 * n + (c.toNat - '0'.toNat)
      if limit < m then .error tooBig else fieldNumber limit tooBig (index + 1) m cs
    else .error (.formatChar c index)

namespace Directive

def layout (d : Directive) : Except Trap FieldLayout := do
  let start := 1 + d.flags.length
  let width ← fieldNumber largestWidth .widthTooBig start 0 d.width
  let precision ← match d.precision with
    | none => pure none
    | some digits => do
      let n ← fieldNumber largestPrecision .precisionTooBig (start + d.width.length + 1) 0 digits
      pure (some n)
  return {
    left := d.flags.contains '-'
    plus := d.flags.contains '+'
    blank := d.flags.contains ' '
    alternate := d.flags.contains '#'
    zero := d.flags.contains '0'
    width
    precision }
where
  largestWidth : Nat := 9223372036854775807

end Directive

namespace FieldLayout

def signOf (l : FieldLayout) (negative : Bool) : List Char :=
  if negative then ['-'] else if l.plus then ['+'] else if l.blank then [' '] else []

def number (l : FieldLayout) (negative : Bool) (mark digits : List Char) : List Char :=
  let sign := l.signOf negative
  let gap := l.width - (sign.length + mark.length + digits.length)
  if l.left then sign ++ mark ++ digits ++ List.replicate gap ' '
  else if l.zero then sign ++ mark ++ List.replicate gap '0' ++ digits
  else List.replicate gap ' ' ++ sign ++ mark ++ digits

def text (l : FieldLayout) (s : List Char) : List Char :=
  let shown := match l.precision with
    | some n => s.take n
    | none => s
  let gap := List.replicate (l.width - shown.length) ' '
  if l.left then shown ++ gap else gap ++ shown

/-- An integer in a base; the precision is the least number of digits. -/
def integer (l : FieldLayout) (base : Nat) (mark : List Char) (n : Int) : List Char :=
  let digits := Nat.toDigits base n.natAbs
  let padded := List.replicate (l.precision.getD 0 - digits.length) '0' ++ digits
  l.number (n < 0) (if l.alternate then mark else []) padded

def floatPrecision (l : FieldLayout) (style : Number.FloatStyle) : Nat :=
  let precision := l.precision.getD 6
  if style = .scientific && precision = largestPrecision then 0 else precision

def float (l : FieldLayout) (style : Number.FloatStyle) (x : Float) : List Char :=
  match (Number.floatText style (l.floatPrecision style) l.alternate x).toList with
  | '-' :: digits => l.number true [] digits
  | digits => l.number false [] digits

end FieldLayout

def quoteChar : Char → List Char
  | '\\' => ['\\', '\\']
  | '"' => ['\\', '"']
  | '\n' => ['\\', 'n']
  | '\r' => ['\\', 'r']
  | '\x00' => ['\\', '0']
  | c => [c]

/-- A string as a constant in double quotes; any other value as its text. -/
def quoteConstant : Value → Run String
  | .string s => return String.ofList ('"' :: s.toList.flatMap quoteChar ++ ['"'])
  | v => Run.textOf v

def capitals (cs : List Char) : List Char :=
  cs.map Char.toUpper

def layoutOf (d : Directive) : Run FieldLayout :=
  match d.layout with
  | .ok l => return l
  | .error t => Run.trap t

/-- A value as a directive wants it; `position` is its position among the arguments. -/
def formatValue (call : Caller) (position : Nat) (d : Directive) (v : Value) : Run (List Char) :=
  match d.conversion with
  | .percent => return ['%']
  | .quoted => do return (← quoteConstant v).toList
  | .char => do return [← charOf (← checkInteger position "format" v)]
  | .binaryExact => do
    let n ← checkNumber position "format" v
    return (Number.hexText (← toFloat n)).toList
  | .text => do
    let shown ← display call v
    let l ← layoutOf d
    let shown ← plainText shown
    Run.reserve l.width
    return l.text shown.toList
  | .decimal => integer 10 []
  | .octal => integer 8 ['0', 'o']
  | .hex => integer 16 ['0', 'x']
  | .hexUpper => do return capitals (← integer 16 ['0', 'x'])
  | .fixed => float .fixed
  | .scientific => float .scientific
  | .scientificUpper => do return capitals (← float .scientific)
  | .general => float .general
  | .generalUpper => do return capitals (← float .general)
where
  integer (base : Nat) (mark : List Char) : Run (List Char) := do
    let n ← checkInteger position "format" v
    let l ← layoutOf d
    if largestIntegerPrecision < l.precision.getD 0 then Run.trap .precisionTooLarge
    else if base = 10 && !(Number.int n).isWritable then Run.trap .unwritable
    else
      Run.reserve l.width
      return l.integer base mark n
  float (style : Number.FloatStyle) : Run (List Char) := do
    let n ← checkNumber position "format" v
    let l ← layoutOf d
    let x ← toFloat n
    Run.reserve l.width
    return l.float style x

def formatPieceTexts (call : Caller) (position : Nat) :
    List FormatPiece → List Value → Run (List Char)
  | [], _ => return []
  | .literal c :: pieces, args => return c :: (← formatPieceTexts call position pieces args)
  | .directive d :: pieces, args => do
    if d.conversion = .percent then
      return '%' :: (← formatPieceTexts call position pieces args)
    else
      match args with
      | [] => badArgument (position + 1) "format" .noValue
      | v :: args =>
        let shown ← formatValue call (position + 1) d v
        return shown ++ (← formatPieceTexts call (position + 1) pieces args)

def stringFormat (call : Caller) (format : Value) (args : List Value) : Run Value := do
  let s ← checkString 1 "format" format
  return .string (String.ofList (← formatPieceTexts call 1 (formatPieces s.toList) args))

end TypedLua.Library
