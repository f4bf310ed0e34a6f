import TypedLua.Access

/-!
# Arguments of library functions

Each check answers the argument in the form the function needs, or complains about it by position.
-/

namespace TypedLua.Library

def badArgument {α : Type} (position : Nat) (function : String) (flaw : ArgumentFlaw) : Run α :=
  Run.complain (.argument position function flaw)

def checkTable (position : Nat) (function : String) : Value → Run Nat
  | .table id => return id
  | v => badArgument position function (.expected "table" v.typeName)

def checkInteger (position : Nat) (function : String) (v : Value) : Run Int :=
  match (Operator.toNumber? v).bind Number.toInt? with
  | some n => return n
  | none => badArgument position function .noInteger

def checkString (position : Nat) (function : String) : Value → Run String
  | .string s => return s
  | .number n => Run.textOf (.number n)
  | v => badArgument position function (.expected "string" v.typeName)

def checkNumber (position : Nat) (function : String) (v : Value) : Run Number :=
  match Operator.toNumber? v with
  | some n => return n
  | none => badArgument position function (.expected "number" v.typeName)

def toFloat (n : Number) : Run Float :=
  Run.lift (Operator.arithmetic n.toFloat)

def display (call : Caller) (v : Value) : Run Value := do
  match v with
  | .table id =>
    match (← Run.table id).metatable with
    | none => return .string (← Run.textOf v)
    | some m =>
      match ← Run.getRaw m (.string "__tostring") with
      | .nil => return .string (← Run.textOf v)
      | handler => return (← call handler [v]).first
  | _ => return .string (← Run.textOf v)

/-- The plain text of any value, for descriptions: nothing is looked up, and no digit is lost. -/
def plainText : Value → Run String
  | .nil => return "None"
  | .bool true => return "True"
  | .bool false => return "False"
  | .number n => if n.isWritable then return n.exactText else Run.trap .unwritable
  | .string s => return s
  | .function (.predicate id) => return "Predicate(" ++ (← Run.predicate id).description ++ ")"
  | v => return v.text

def charOf (code : Int) : Run Char :=
  if code < -2147483648 || 2147483647 < code then Run.trap .charTooLarge
  else if code < 0 || 1114111 < code then Run.trap .charRange
  else return Text.ofCodePoint code.toNat

end TypedLua.Library
