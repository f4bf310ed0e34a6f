import TypedLua.Library.Argument
import TypedLua.Text.Case

/-!
# The string library

Positions count characters from one; negative ones count from the end.
-/

namespace TypedLua.Library

/-- A range of positions in a text of a given length, with positions counted from one. -/
def textRange (size : Nat) (i j : Int) : Int × Int :=
  let start := if i < 0 then max (size + i + 1) 1 else if i = 0 then 1 else i
  let stop := if j < 0 then size + j + 1 else if j > size then size else j
  (start, stop)

/-- The characters behind the first `start` up to a place; a negative place counts from the end. -/
def slice (cs : List Char) (start stop : Int) : List Char :=
  let stop := if stop < 0 then max (stop + cs.length) 0 else stop
  (cs.take stop.toNat).drop start.toNat

def stringSub (v : Value) (i j : Option Value) : Run Value := do
  let s ← checkString 1 "sub" v
  let i ← checkInteger 2 "sub" (i.getD (.int 1))
  let j ← checkInteger 3 "sub" (j.getD (.int (-1)))
  let (start, stop) := textRange s.length i j
  if start > stop then return .string ""
  else return .string (String.ofList (slice s.toList (start - 1) stop))

/-- The code points between two positions; one of them if only one position is given. -/
def stringByte (v : Value) (i j : Option Value) : Run Result := do
  let s ← checkString 1 "byte" v
  let i ← checkInteger 2 "byte" (i.getD (.int 1))
  let j ← match j with
    | none | some .nil => pure i
    | some j => checkInteger 3 "byte" j
  let (start, stop) := textRange s.length i j
  return .many ((slice s.toList (start - 1) stop).map fun c => .int (Text.codePoint c))

def charsOf (position : Nat) : List Value → Run (List Char)
  | [] => return []
  | v :: vs => do
    let c ← charOf (← checkInteger position "char" v)
    return c :: (← charsOf (position + 1) vs)

def stringChar (args : List Value) : Run Value := do
  return .string (String.ofList (← charsOf 1 args))

def largestIndex : Int := 9223372036854775807

def appendCopies (separator s : String) : (count : Nat) → (text : String) → String
  | 0, text => text
  | count + 1, text => appendCopies separator s count (text ++ separator ++ s)

def stringRep (v n : Value) (separator : Option Value) : Run Value := do
  let s ← checkString 1 "rep" v
  let count ← checkInteger 2 "rep" n
  if count ≤ 0 then return .string ""
  let separator ← checkString 3 "rep" (separator.getD (.string ""))
  if largestIndex < count then Run.trap .indexTooLarge
  let count := count.toNat
  Run.reserve (count * max 8 (s.length + separator.length))
  return .string (appendCopies separator s (count - 1) s)

def stringLen (v : Value) : Run Value := do
  return .int (← checkString 1 "len" v).length

def stringUpper (v : Value) : Run Value := do
  return .string (Text.upper (← checkString 1 "upper" v))

def stringLower (v : Value) : Run Value := do
  return .string (Text.lower (← checkString 1 "lower" v))

def stringReverse (v : Value) : Run Value := do
  return .string (String.ofList (← checkString 1 "reverse" v).toList.reverse)

end TypedLua.Library
