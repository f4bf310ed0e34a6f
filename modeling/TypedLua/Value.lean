import TypedLua.Builtin

/-!
# Values

A value is nil, a boolean, a number, a string, a table or a function.
-/

namespace TypedLua

inductive Callable where
  | builtin (b : Builtin)
  | closure (id : Nat)
  | traversal (id : Nat)
  | predicate (id : Nat)
  deriving Repr, DecidableEq, Inhabited

inductive Value where
  | nil
  | bool (b : Bool)
  | number (n : Number)
  | string (s : String)
  | table (id : Nat)
  | function (f : Callable)
  deriving Repr, DecidableEq, Inhabited

namespace Value

def int (n : Int) : Value := .number (.int n)

def truthy : Value → Bool
  | nil | bool false => false
  | _ => true

def isNil : Value → Bool
  | nil => true
  | _ => false

def typeName : Value → String
  | nil => "nil"
  | bool _ => "boolean"
  | number _ => "number"
  | string _ => "string"
  | table _ => "table"
  | function _ => "function"

def kindName : Value → String
  | nil => "NoneType"
  | bool _ => "bool"
  | number (.int _) => "int"
  | number (.float _) => "float"
  | string _ => "str"
  | table _ => "Table"
  | function (.predicate _) => "Predicate"
  | function _ => "function"

/-- A number that stands for the identity of a table or function, in hexadecimal. -/
def identityText (id : Nat) : String :=
  let digits := Nat.toDigits 16 id
  "0x" ++ String.ofList (List.replicate (8 - digits.length) '0' ++ digits)

def identity : Callable → Nat
  | .builtin _ => 0
  | .closure id => 4 * id + 1
  | .traversal id => 4 * id + 2
  | .predicate id => 4 * id + 3

def text : Value → String
  | nil => "nil"
  | bool true => "true"
  | bool false => "false"
  | number n => n.text
  | string s => s
  | table id => "table: " ++ identityText id
  | function f => "function: " ++ identityText (identity f)

/-- The text of a value can be written; an integer may have too many digits for that. -/
def isWritable : Value → Bool
  | number n => n.isWritable
  | _ => true

/-- Equality as programs see it: numbers by value, whatever their kind, and all else as it is. -/
def eq : Value → Value → Bool
  | number a, number b => a.eq b
  | a, b => decide (a = b)

def describe : Value → String
  | string s => "string \"" ++ s ++ "\""
  | nil => "nil"
  | table _ => "table"
  | function _ => "function"
  | v => v.typeName ++ " " ++ v.text

end Value

inductive Result where
  | one (v : Value)
  | many (vs : List Value)
  deriving Repr, DecidableEq, Inhabited

namespace Result

def first : Result → Value
  | one v => v
  | many [] => .nil
  | many (v :: _) => v

def toList : Result → List Value
  | one v => [v]
  | many vs => vs

/-- The result that delivers given values; one value is delivered as such. -/
def pack : List Value → Result
  | [v] => one v
  | vs => many vs

@[simp] theorem toList_pack (vs : List Value) : (pack vs).toList = vs := by
  unfold pack; split <;> rfl

end Result

def adjust (count : Nat) (vs : List Value) : List Value :=
  vs.take count ++ List.replicate (count - vs.length) .nil

@[simp] theorem length_adjust (count : Nat) (vs : List Value) :
    (adjust count vs).length = count := by
  simp [adjust]; omega

/-- Values cut or lengthened to a number of them; a negative number leaves off that many. -/
def adjustBy (count : Int) (vs : List Value) : List Value :=
  if count < 0 then vs.take (vs.length - count.natAbs) else adjust count.toNat vs

end TypedLua
