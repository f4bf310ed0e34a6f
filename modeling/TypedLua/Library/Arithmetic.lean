import TypedLua.Library.Argument

/-!
# The math library

Numbers may be written as strings.
-/

namespace TypedLua.Library

/-- A number rounded to an integer; infinities and the undefined number stay as they are. -/
def rounded (round : Float → Option Int) (n : Number) : Run Value := do
  match n with
  | .int _ =>
    let _ ← toFloat n
    return .number n
  | .float x =>
    match round x with
    | some k => return .int k
    | none => return .number n

def mathFloor (v : Value) : Run Value := do
  rounded Binary64.floor? (← checkNumber 1 "floor" v)

def mathCeil (v : Value) : Run Value := do
  rounded Binary64.ceil? (← checkNumber 1 "ceil" v)

def mathAbs (v : Value) : Run Value := do
  return .number (← checkNumber 1 "abs" v).abs

def mathSqrt (v : Value) : Run Value := do
  let x ← toFloat (← checkNumber 1 "sqrt" v)
  return .number (.float (if 0 ≤ x then x.sqrt else Binary64.notANumber))

def checkNumbers (function : String) (position : Nat) : List Value → Run (List Number)
  | [] => return []
  | v :: vs => do
    let n ← checkNumber position function v
    return n :: (← checkNumbers function (position + 1) vs)

/-- The first of the best numbers, where `better` compares a number with the best so far. -/
def best (function : String) (better : Number → Number → Bool) (args : List Value) : Run Value := do
  match ← checkNumbers function 1 args with
  | [] => badArgument 1 function .numberMissing
  | n :: ns => return .number (ns.foldl (fun found m => if better m found then m else found) n)

def mathMax (args : List Value) : Run Value :=
  best "max" (fun m found => found.lt m) args

def mathMin (args : List Value) : Run Value :=
  best "min" (fun m found => m.lt found) args

def remainder (x y : Float) : Run Float :=
  let r := Binary64.truncMod x y
  if Binary64.isNaN r && !Binary64.isNaN x && !Binary64.isNaN y then Run.trap .mathDomain
  else return r

def mathFmod (a b : Value) : Run Value := do
  let m ← checkNumber 1 "fmod" a
  let n ← checkNumber 2 "fmod" b
  match m, n with
  | .int _, .int k =>
    if k = 0 then badArgument 2 "fmod" .zero
    else do
      let x ← toFloat m
      let y ← toFloat n
      return .int ((Binary64.truncate? (← remainder x y)).getD 0)
  | _, _ =>
    if n.isZero then return .number (.float Binary64.notANumber)
    else do
      let x ← toFloat m
      let y ← toFloat n
      return .number (.float (← remainder x y))

def mathToInteger : Value → Value
  | .number n =>
    match n.toInt? with
    | some k => .int k
    | none => .nil
  | _ => .nil

def mathType : Value → Value
  | .number (.int _) => .string "integer"
  | .number (.float _) => .string "float"
  | _ => .nil

end TypedLua.Library
