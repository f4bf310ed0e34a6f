import TypedLua.Table
import TypedLua.Target.Load

/-!
# Errors at run time

A program fails in one of three ways.
-/

namespace TypedLua

inductive ArgumentFlaw where
  | expected (what got : String)
  | noInteger
  | noValue
  | valueExpected
  | numberMissing
  | indexRange
  | positionBounds
  | nilOrTable
  | zero
  deriving Repr, DecidableEq

def ArgumentFlaw.message : ArgumentFlaw → String
  | expected what got => what ++ " expected, got " ++ got
  | noInteger => "number has no integer representation"
  | noValue => "no value"
  | valueExpected => "value expected"
  | numberMissing => "number expected, got no value"
  | indexRange => "index out of range"
  | positionBounds => "position out of bounds"
  | nilOrTable => "nil or table expected"
  | zero => "zero"

/-- Why an operation cannot be carried out; its message becomes the value of the error. -/
inductive Complaint where
  | nilKey
  | undefinedKey
  | invalidNext
  | arithmetic (type operation : String)
  | quotientByZero
  | remainderByZero
  | concatenate (type : String)
  | length (type : String)
  | compare (left right : String)
  | index (type key : String)
  | call (type : String)
  | callMethod (name : String)
  | loopBound (which : String)
  | loopStep
  | argument (position : Nat) (function : String) (flaw : ArgumentFlaw)
  | argumentCount (function : String)
  | assertion
  | joinedValue (position : String)
  | shape (type : String)
  deriving Repr, DecidableEq

def Complaint.message : Complaint → String
  | nilKey => "table index is nil"
  | undefinedKey => "table index is NaN"
  | invalidNext => "invalid key to 'next'"
  | arithmetic type operation =>
    s!"attempt to perform arithmetic on a {type} value ({operation})"
  | quotientByZero => "attempt to perform 'n//0'"
  | remainderByZero => "attempt to perform 'n%%0'"
  | concatenate type => s!"attempt to concatenate a {type} value"
  | length type => s!"attempt to get length of a {type} value"
  | compare left right =>
    if left = right then s!"attempt to compare two {left} values"
    else s!"attempt to compare {left} with {right}"
  | index type key => s!"attempt to index a {type} value (field '{key}')"
  | call type => s!"attempt to call a {type} value"
  | callMethod name => s!"attempt to call a nil value (method '{name}')"
  | loopBound which => s!"'for' {which} value must be a number"
  | loopStep => "'for' step is zero"
  | argument position function flaw =>
    s!"bad argument #{position} to '{function}' ({flaw.message})"
  | argumentCount function => s!"wrong number of arguments to '{function}'"
  | assertion => "assertion failed!"
  | joinedValue position => s!"invalid value (at index {position}) in table for 'concat'"
  | shape type => s!"table type expects a table shape, got {type}"

inductive Trap where
  | arity (error : ArityError)
  | notCallable (kind : String)
  | notSubscriptable (kind : String)
  | emptyText
  | unbound (name : String)
  | unassigned (name : String)
  | undefinedName (name : String)
  | tooLarge
  | infiniteInteger
  | indexTooLarge
  | charTooLarge
  | charRange
  | mathDomain
  | numeralBase (kind : String)
  | joinedItem (position : Nat) (kind : String)
  | addition (kind : String)
  | formatChar (c : Char) (index : Nat)
  | widthTooBig
  | precisionTooBig
  /-- A precision that fits a directive, and is too large for an integer. -/
  | precisionTooLarge
  | memory
  | surrogates (run : Text.SurrogateRun)
  | unwritable
  | load (error : Target.LoadError)
  deriving Repr, DecidableEq

/-- The kinds of traps; the last two are a text without bytes and a text that is no module. -/
inductive Trap.Kind where
  | type | value | overflow | index | name | unassigned | memory | bytes | text
  deriving Repr, DecidableEq

namespace Trap

def kind : Trap → Kind
  | arity _ | notCallable _ | notSubscriptable _ | numeralBase _ | joinedItem .. | addition _ => .type
  | charRange | mathDomain | formatChar .. | widthTooBig | precisionTooBig | unwritable
  | load .nullName => .value
  | tooLarge | infiniteInteger | indexTooLarge | charTooLarge | precisionTooLarge => .overflow
  | emptyText => .index
  | unbound _ | undefinedName _ => .name
  | unassigned _ => .unassigned
  | memory => .memory
  | surrogates _ => .bytes
  | load .illegal => .text

def isCaught (t : Trap) : Bool :=
  match t.kind with
  | .type | .value | .overflow | .bytes => true
  | .index | .name | .unassigned | .memory | .text => false

def message : Trap → String
  | arity error => error.message
  | notCallable kind => s!"'{kind}' object is not callable"
  | notSubscriptable kind => s!"'{kind}' object is not subscriptable"
  | emptyText => "string index out of range"
  | unbound name =>
    s!"cannot access free variable '{name}' where it is not associated with a value in enclosing scope"
  | unassigned name =>
    s!"cannot access local variable '{name}' where it is not associated with a value"
  | undefinedName name => s!"name '{name}' is not defined"
  | tooLarge => "int too large to convert to float"
  | infiniteInteger => "cannot convert float infinity to integer"
  | indexTooLarge => "cannot fit 'int' into an index-sized integer"
  | charTooLarge => "Python int too large to convert to C int"
  | charRange => "chr() arg not in range(0x110000)"
  | mathDomain => "math domain error"
  | numeralBase kind =>
    s!"int() argument must be a string, a bytes-like object or a real number, not '{kind}'"
  | joinedItem position kind =>
    s!"sequence item {position}: expected str instance, {kind} found"
  | addition "str" => "can only concatenate str (not \"int\") to str"
  | addition kind => s!"unsupported operand type(s) for +: '{kind}' and 'int'"
  | formatChar c index =>
    let code := String.ofList (Nat.toDigits 16 c.toNat)
    s!"unsupported format character '{c}' (0x{code}) at index {index}"
  | widthTooBig => "width too big"
  | precisionTooBig => "precision too big"
  | precisionTooLarge => "precision too large"
  | memory => ""
  | surrogates run => run.message
  | unwritable => Number.TextError.unwritable.message
  | load .nullName => "embedded null character"
  | load .illegal => "invalid syntax"

end Trap

inductive Fault where
  | raised (value : Value)
  | mismatch (expected : String) (actual : Value)
  | trap (t : Trap)
  deriving Repr, DecidableEq

namespace Fault

def complaint (c : Complaint) : Fault :=
  .raised (.string c.message)

def mismatchMessage (expected : String) (actual : Value) : String :=
  "type mismatch: expected " ++ expected ++ ", got " ++ actual.describe

/-- The value that a protected call reports; none if it cannot catch the fault. -/
def caught? : Fault → Option Value
  | raised value => some value
  | mismatch expected actual => some (.string (mismatchMessage expected actual))
  | trap t => if t.isCaught then some (.string t.message) else none

def isRaised : Fault → Bool
  | trap _ => false
  | _ => true

end Fault

def KeyError.toFault : KeyError → Fault
  | nil => .complaint .nilKey
  | undefined => .complaint .undefinedKey

end TypedLua
