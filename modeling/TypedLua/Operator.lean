import TypedLua.Fault

/-!
# Operators

Arithmetic takes numbers, and strings that write a number.
-/

namespace TypedLua.Operator

abbrev Partial (α : Type) := Except Fault α

def complain {α : Type} (c : Complaint) : Partial α :=
  .error (.complaint c)

def faultOf : Number.ArithError → Fault
  | .tooLarge => .trap .tooLarge
  | .quotientByZero => .complaint .quotientByZero
  | .remainderByZero => .complaint .remainderByZero

def arithmetic {α : Type} : Except Number.ArithError α → Partial α
  | .ok a => .ok a
  | .error e => .error (faultOf e)

def toNumber? : Value → Option Number
  | .number n => some n
  | .string s => Number.ofText? s
  | _ => none

def operand (operation : String) (v : Value) : Partial Number :=
  match toNumber? v with
  | some n => .ok n
  | none => complain (.arithmetic v.typeName operation)

def floatOperand (operation : String) (v : Value) : Partial Float := do
  let n ← operand operation v
  arithmetic n.toFloat

def onNumbers (operation : String) (f : Number → Number → Except Number.ArithError Number)
    (a b : Value) : Partial Value := do
  let x ← operand operation a
  let y ← operand operation b
  return .number (← arithmetic (f x y))

/-- An operation on two operands that become doubles first, one after the other. -/
def onFloats (operation : String) (f : Float → Float → Float) (a b : Value) : Partial Value := do
  let x ← floatOperand operation a
  let y ← floatOperand operation b
  return .number (.float (f x y))

def neg (a : Value) : Partial Value := do
  let x ← operand "unm" a
  return .number x.neg

def joinable (v : Value) : Partial String :=
  match v with
  | .string s => .ok s
  | .number n => if n.isWritable then .ok n.text else .error (.trap .unwritable)
  | _ => complain (.concatenate v.typeName)

def concat (a b : Value) : Partial Value := do
  let x ← joinable a
  let y ← joinable b
  return .string (x ++ y)

def lt : Value → Value → Partial Bool
  | .number a, .number b => .ok (a.lt b)
  | .string a, .string b => .ok (Text.precedes a b)
  | a, b => complain (.compare a.typeName b.typeName)

def le : Value → Value → Partial Bool
  | .number a, .number b => .ok (a.le b)
  | .string a, .string b => .ok !(Text.precedes b a)
  | a, b => complain (.compare a.typeName b.typeName)

def binary : BinaryOp → Value → Value → Partial Value
  | .add, a, b => onNumbers "add" Number.add a b
  | .sub, a, b => onNumbers "sub" Number.sub a b
  | .mul, a, b => onNumbers "mul" Number.mul a b
  | .div, a, b => onFloats "div" Number.divFloat a b
  | .idiv, a, b => onNumbers "idiv" Number.idiv a b
  | .mod, a, b => onNumbers "mod" Number.mod a b
  | .pow, a, b => onFloats "pow" Number.powFloat a b
  | .concat, a, b => concat a b
  | .eq, a, b => .ok (.bool (a.eq b))
  | .ne, a, b => .ok (.bool !(a.eq b))
  | .lt, a, b => .bool <$> lt a b
  | .le, a, b => .bool <$> le a b
  | .gt, a, b => .bool <$> lt b a
  | .ge, a, b => .bool <$> le b a
  | .and, a, b => .ok (if a.truthy then b else a)
  | .or, a, b => .ok (if a.truthy then a else b)

/-! ## Counting -/

/-- The value after `value` when counting by `step`; integers stay integers while both are. -/
def advance (value step : Number) : Partial Number :=
  arithmetic (value.add step)

def loopBound (which : String) : Value → Partial Number
  | .number n => .ok n
  | _ => complain (.loopBound which)

structure Progression where
  start : Number
  stop : Number
  step : Number
  deriving Repr, DecidableEq

namespace Progression

def make (start stop step : Value) : Partial Progression := do
  let start ← loopBound "initial" start
  let stop ← loopBound "limit" stop
  let step ← loopBound "step" step
  if step.isZero then complain .loopStep
  else match start, step with
    | .int _, .int _ => return ⟨start, stop, step⟩
    | _, _ => do
      let first ← arithmetic start.toFloat
      return ⟨.float first, stop, step⟩

def within (p : Progression) (value : Number) : Bool :=
  ((Number.int 0).lt p.step && value.le p.stop) || (p.step.lt (.int 0) && p.stop.le value)

/-- The first values of a loop from a value on, at most a number of them, and whether more follow. -/
def valuesFrom (p : Progression) : (limit : Nat) → Number → Partial (List Number × Bool)
  | 0, value => .ok ([], p.within value)
  | n + 1, value =>
    if p.within value then do
      let following ← advance value p.step
      let (rest, more) ← valuesFrom p n following
      return (value :: rest, more)
    else .ok ([], false)

/-- The first values of a loop, at most a number of them, and whether more follow. -/
def values (p : Progression) (limit : Nat) : Partial (List Number × Bool) :=
  p.valuesFrom limit p.start

end Progression

end TypedLua.Operator
