import TypedLua.Library.Argument

/-!
# The table library

Insertion, removal, joining and sorting act on the sequence of a table: its values from one to the
border.
-/

namespace TypedLua.Library

/-- A table after each value from `position + count - 1` down to `position` moved up by one. -/
def shiftUp (t : Table) (position : Int) : Nat → Table
  | 0 => t
  | count + 1 =>
    let k := position + count
    shiftUp (t.update (.int (k + 1)) (t.find (.int k))) position count

/-- A table after each of a number of values behind `position` moved down by one. -/
def shiftDown (t : Table) (position : Int) : Nat → Table
  | 0 => t
  | count + 1 =>
    shiftDown (t.update (.int position) (t.find (.int (position + 1)))) (position + 1) count

def tableInsert (v : Value) (args : List Value) : Run Unit := do
  let id ← checkTable 1 "insert" v
  let t ← Run.table id
  let size := t.border
  match args with
  | [new] => Run.putTable id (t.update (.int (size + 1)) new)
  | [position, new] =>
    let position ← checkInteger 2 "insert" position
    if 1 ≤ position && position ≤ size + 1 then
      let moved := shiftUp t position (size + 1 - position).toNat
      Run.putTable id (moved.update (.int position) new)
    else badArgument 2 "insert" .positionBounds
  | _ => Run.complain (.argumentCount "insert")

/-- Removes the value at a position, at the end if none is given, and answers it. -/
def tableRemove (v : Value) (position : Option Value) : Run Value := do
  let id ← checkTable 1 "remove" v
  let t ← Run.table id
  let size := t.border
  let position ← match position with
    | none | some .nil => pure (size : Int)
    | some p => checkInteger 2 "remove" p
  if size = 0 && position = 0 then return t.find (.int 0)
  if 1 ≤ position && position ≤ size + 1 then
    let count := (size - position).toNat
    let moved := shiftDown t position count
    Run.putTable id (moved.update (.int (position + count)) .nil)
    return t.find (.int position)
  else badArgument 2 "remove" .positionBounds

def joinTexts (t : Table) : (count : Nat) → (k : Int) → Run (List String)
  | 0, _ => return []
  | count + 1, k => do
    let text ← match t.find (.int k) with
      | .string s => pure s
      | .number n => Run.textOf (.number n)
      | _ => do
        let position ← Run.textOf (.int k)
        Run.complain (.joinedValue position)
    return text :: (← joinTexts t count (k + 1))

def tableConcat (v : Value) (separator i j : Option Value) : Run Value := do
  let id ← checkTable 1 "concat" v
  let separator ← checkString 2 "concat" (separator.getD (.string ""))
  let t ← Run.table id
  let stop ← match j with
    | none | some .nil => pure (t.border : Int)
    | some j => checkInteger 4 "concat" j
  let start ← checkInteger 3 "concat" (i.getD (.int 1))
  let texts ← joinTexts t (stop + 1 - start).toNat start
  return .string (separator.intercalate texts)

/-! ## Sorting -/

/-- The first value comes strictly before the second, by a function or by the order of values. -/
def before (call : Caller) : Value → Value → Value → Run Bool
  | .nil, a, b => Run.lift (Operator.lt a b)
  | comparator, a, b => return (← call comparator [a, b]).first.truthy

def precedes (less : Value → Value → Run Bool) (a b : Value) : Run Bool := do
  if ← less a b then return true
  let _ ← less b a
  return false

/-- The values at the front that go on in one direction behind the value `last`, and the rest. -/
def takeRun (less : Value → Value → Run Bool) (falling : Bool) (last : Value) :
    List Value → Run (List Value × List Value)
  | [] => return ([], [])
  | x :: xs => do
    if (← precedes less x last) == falling then
      let (run, rest) ← takeRun less falling x xs
      return (x :: run, rest)
    else return ([], x :: xs)

def firstRun (less : Value → Value → Run Bool) : List Value → Run (List Value × List Value)
  | [] => return ([], [])
  | [x] => return ([x], [])
  | x :: y :: rest => do
    let falling ← precedes less y x
    let (run, rest) ← takeRun less falling y rest
    let run := x :: y :: run
    return (if falling then run.reverse else run, rest)

/-- The place of a value between two places among sorted values, behind its equals; found by halving,
within a number of steps. -/
def placeOf (less : Value → Value → Run Bool) (x : Value) (sorted : Array Value) :
    (steps low high : Nat) → Run Nat
  | 0, low, _ => return low
  | steps + 1, low, high => do
    if low < high then
      let middle := low + (high - low) / 2
      if ← precedes less x (sorted.getD middle .nil) then placeOf less x sorted steps low middle
      else placeOf less x sorted steps (middle + 1) high
    else return low

def sortOnto (less : Value → Value → Run Bool) (sorted : Array Value) :
    List Value → Run (Array Value)
  | [] => return sorted
  | x :: xs => do
    let place ← placeOf less x sorted sorted.size 0 sorted.size
    sortOnto less (sorted.insertIdxIfInBounds place x) xs

/-- Values in order: the run at the front, and behind it each value put in its place. -/
def sortValues (less : Value → Value → Run Bool) (values : List Value) : Run (List Value) := do
  let (run, rest) ← firstRun less values
  return (← sortOnto less run.toArray rest).toList

def tableSort (call : Caller) (v comparator : Value) : Run Unit := do
  let id ← checkTable 1 "sort" v
  let values := (← Run.table id).sequence
  let sorted ← sortValues (before call comparator) values
  let t ← Run.table id
  Run.putTable id (t.appendFrom 1 sorted)

section Equations

-- Made here, so that the proofs that open these functions need not wait for each other.
attribute [local simp] shiftUp shiftDown joinTexts takeRun firstRun placeOf sortOnto

end Equations

end TypedLua.Library
