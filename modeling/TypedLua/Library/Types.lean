import TypedLua.Library.Argument

/-!
# Types at run time

The constructors of predicates, and what it means for a value to conform to a predicate.
-/

namespace TypedLua.Library

def describeType : Value → Run String
  | .function (.predicate id) => return (← Run.predicate id).description
  | _ => return "<custom type>"

def describeTypes : List Value → Run (List String)
  | [] => return []
  | v :: vs => do
    let d ← describeType v
    return d :: (← describeTypes vs)

def describeFields : List (Key × Value) → Run (List String)
  | [] => return []
  | (k, v) :: rest => do
    let key ← Run.textOf k.toValue
    let d ← describeType v
    return (key ++ " = " ++ d) :: (← describeFields rest)

/-! ## Constructors -/

def literalType (expected : Value) : Run Value := do
  Run.newPredicate ⟨"\"" ++ (← plainText expected) ++ "\"", .literal expected⟩

/-- A key of a shape names an item: it counts as an integer from one to the number of items, and
`true` counts as one. -/
def isItemKey (count : Nat) : Key → Bool
  | .int n => 1 ≤ n && n ≤ count
  | .bool true => 1 ≤ count
  | _ => false

def shapeType (shape : Value) : Run Value := do
  match shape with
  | .table id =>
    let t ← Run.table id
    let items := t.sequence
    let fields := t.entries.filter fun e => !isItemKey items.length e.1
    let fieldTexts ← describeFields fields
    let itemTexts ← describeTypes items
    let itemTexts := match itemTexts with
      | [d] => [d ++ "..."]
      | ds => ds
    let text := "\x7b" ++ ", ".intercalate (itemTexts ++ fieldTexts) ++ "\x7d"
    Run.newPredicate ⟨text, .shape items fields⟩
  | v => Run.complain (.shape v.typeName)

def functionType (params result : Value) : Run Value := do
  let params ← match params with
    | .table id => do pure (← Run.table id).sequence
    | _ => pure []
  let texts ← describeTypes params
  let returns ← match result with
    | .nil => pure ""
    | r => do pure (": " ++ (← describeType r))
  Run.newPredicate ⟨"function(" ++ ", ".intercalate texts ++ ")" ++ returns, .function⟩

def unionType (left right : Value) : Run Value := do
  let l ← describeType left
  let r ← describeType right
  Run.newPredicate ⟨l ++ " or " ++ r, .union left right⟩

def intersectionType (left right : Value) : Run Value := do
  let l ← describeType left
  let r ← describeType right
  Run.newPredicate ⟨l ++ " and " ++ r, .intersection left right⟩

def complementType (inner : Value) : Run Value := do
  Run.newPredicate ⟨"not " ++ (← describeType inner), .complement inner⟩

/-! ## Conformance -/

def fieldsConform (conforms : Value → Value → Run Bool) (id : Nat) :
    List (Key × Value) → Run Bool
  | [] => return true
  | (k, type) :: rest => do
    let v ← Run.getRaw id k.toValue
    if ← conforms type v then fieldsConform conforms id rest else return false

def allConform (conforms : Value → Value → Run Bool) (type : Value) : List Value → Run Bool
  | [] => return true
  | v :: vs => do
    if ← conforms type v then allConform conforms type vs else return false

/-- The items of a table from a position on conform to given types. -/
def itemsConform (conforms : Value → Value → Run Bool) (id : Nat) (position : Int) :
    List Value → Run Bool
  | [] => return true
  | type :: rest => do
    let v ← Run.getRaw id (.int position)
    if ← conforms type v then itemsConform conforms id (position + 1) rest else return false

def passes (conforms : Value → Value → Run Bool) (test : Test) (v : Value) : Run Bool :=
  match test, v with
  | .any, _ => return true
  | .nil, .nil => return true
  | .number, .number _ => return true
  | .integer, .number (.int _) => return true
  | .string, .string _ => return true
  | .boolean, .bool _ => return true
  | .table, .table _ => return true
  | .function, .function _ => return true
  | .literal (.string expected), .string s => return s == expected
  | .shape items fields, .table id => do
    if ← fieldsConform conforms id fields then
      match items with
      | [type] => do
        let t ← Run.table id
        allConform conforms type t.sequence
      | types => itemsConform conforms id 1 types
    else return false
  | .union left right, v => do
    if ← conforms left v then return true else conforms right v
  | .intersection left right, v => do
    if ← conforms left v then conforms right v else return false
  | .complement inner, v => do
    return !(← conforms inner v)
  | _, _ => return false

def conformsWithin (call : Caller) : Nat → Value → Value → Run Bool
  | 0, _, _ => Run.exhausted
  | n + 1, .function (.predicate id), v => do
    passes (conformsWithin call n) (← Run.predicate id).test v
  | _ + 1, f, v => do
    match ← Run.attempt (call f [v]) with
    | .ok _ => return true
    | .error fault => if fault.isRaised then return false else Run.fail fault

def conforms (call : Caller) (type v : Value) : Run Bool := do
  conformsWithin call ((← get).predicates.size + 1) type v

/-- A predicate called as a function: it fails unless the value conforms. -/
def applyPredicate (call : Caller) (id : Nat) (v : Value) : Run Unit := do
  if ← conforms call (.function (.predicate id)) v then return ()
  else if v.isWritable then Run.fail (.mismatch (← Run.predicate id).description v)
  else Run.trap .unwritable

section Equations

-- Made here, so that the proofs that open these functions need not wait for each other.
attribute [local simp] describeTypes describeFields fieldsConform allConform itemsConform passes conformsWithin

end Equations

end TypedLua.Library
