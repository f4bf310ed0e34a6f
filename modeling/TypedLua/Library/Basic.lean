import TypedLua.Library.Argument
import TypedLua.Text.Case

/-!
# Basic functions

Printing, conversions, traversal, errors and metatables.
-/

namespace TypedLua.Library

/-! ## Output and conversions -/

def joinable : Nat → List Value → Run (List String)
  | _, [] => return []
  | position, .string s :: rest => return s :: (← joinable (position + 1) rest)
  | position, v :: _ => Run.trap (.joinedItem position v.kindName)

def displayAll (call : Caller) : List Value → Run (List Value)
  | [] => return []
  | v :: vs => do
    let shown ← display call v
    return shown :: (← displayAll call vs)

def print (call : Caller) (channel : Nat) (args : List Value) : Run Unit := do
  let shown ← displayAll call args
  let texts ← joinable 0 shown
  Run.emit channel ("\t".intercalate texts ++ "\n")

/-- The value of a numeric text in a base; none for a base that does not exist. -/
def readInBase (text : String) (base : Int) : Option Int :=
  if base = 0 || (2 ≤ base && base ≤ 36) then
    Numeral.int? base.toNat (Text.lower (String.ofList (Text.trim text.toList))).toList
  else none

def baseOf : Value → Run (Option Int)
  | .number (.int n) => return some n
  | .number (.float x) =>
    if Binary64.isInfinite x then Run.trap .infiniteInteger else return Binary64.truncate? x
  | .string s => return Numeral.int? 10 s.toList
  | .bool b => return some (if b then 1 else 0)
  | v => Run.trap (.numeralBase v.kindName)

def ofNumber? : Option Number → Value
  | some n => .number n
  | none => .nil

def toNumber (v : Value) : Option Value → Run Value
  | none | some .nil => return ofNumber? (Operator.toNumber? v)
  | some base => do
    match v with
    | .string s =>
      match ← baseOf base with
      | some b => return ofNumber? ((readInBase s b).map Number.int)
      | none => return .nil
    | _ => return .nil

/-! ## Traversal -/

def pairs (v : Value) : Run Result := do
  let id ← checkTable 1 "pairs" v
  let t ← Run.table id
  let step ← Run.newTraversal ⟨id, t.entries.map (·.1)⟩
  return .many [step, v, .nil]

/-- The first key among some that still has a value, with the keys behind it. -/
def nextPresent (t : Table) : List Key → Option (Key × Value × List Key)
  | [] => none
  | k :: ks =>
    let v := t.find k
    if v.isNil then nextPresent t ks else some (k, v, ks)

def traversalStep (id : Nat) : Run Result := do
  let c ← Run.traversal id
  let t ← Run.table c.table
  match nextPresent t c.keys with
  | some (k, v, keys) =>
    Run.putTraversal id { c with keys }
    return .many [k.toValue, v]
  | none =>
    Run.putTraversal id { c with keys := [] }
    return .one .nil

def traversalSignature : Signature :=
  { name := "lua_pairs.<locals>.step", required := [], optional := 2 }

def ipairs : Value → Run Result
  | .nil => badArgument 1 "ipairs" (.expected "table" "nil")
  | v => return .many [.function (.builtin .ipairsStep), v, .int 0]

def successor : Value → Run Value
  | .number n => do return .number (← Run.lift (Operator.arithmetic (n.add (.int 1))))
  | .bool b => return .int (if b then 2 else 1)
  | v => Run.trap (.addition v.kindName)

def ipairsStep (call : Caller) (object i : Value) : Run Result := do
  let k ← successor i
  match ← Access.index call object k with
  | .nil => return .one .nil
  | v => return .many [k, v]

def next (v key : Value) : Run Result := do
  let id ← checkTable 1 "next" v
  match (← Run.table id).next key with
  | none => Run.complain .invalidNext
  | some none => return .one .nil
  | some (some (k, v)) => return .many [k.toValue, v]

def unpack (v : Value) (i j : Option Value) : Run Result := do
  let id ← checkTable 1 "unpack" v
  let start ← checkInteger 2 "unpack" (i.getD (.int 1))
  let stop ← match j with
    | none | some .nil => do
      let t ← Run.table id
      pure (t.border : Int)
    | some j => checkInteger 3 "unpack" j
  let t ← Run.table id
  return .many ((List.range (stop + 1 - start).toNat).map fun (k : Nat) => t.find (.int (start + k)))

/-! ## Arguments and errors -/

/-- The number of arguments, or the arguments from a position on; a negative one counts from the
end. -/
def select (n : Value) (args : List Value) : Run Result := do
  if n = .string "#" then return .one (.int args.length)
  let n ← checkInteger 1 "select" n
  if n < 0 then
    if (args.length : Int) < -n then badArgument 1 "select" .indexRange
    else return .many (args.drop (args.length - n.natAbs))
  else if n = 0 then badArgument 1 "select" .indexRange
  else return .many (args.drop (n.toNat - 1))

/-- Answers its arguments if the first is true, and fails otherwise. -/
def assert : List Value → Run Result
  | [] => badArgument 1 "assert" .valueExpected
  | v :: rest =>
    if v.truthy then return .pack (v :: rest)
    else match rest with
      | [] => Run.complain .assertion
      | message :: _ => Run.raise message

def xpcall (call : Caller) (f handler : Value) (args : List Value) : Run Result := do
  match ← Access.protect call f args with
  | .many [.bool false, v] => return .many (.bool false :: (← call handler [v]).toList)
  | r => return r

/-! ## Metatables and raw access -/

def setMetatable (v m : Value) : Run Result := do
  let id ← checkTable 1 "setmetatable" v
  let metatable ← match m with
    | .nil => pure none
    | .table m => pure (some m)
    | _ => badArgument 2 "setmetatable" .nilOrTable
  let t ← Run.table id
  Run.putTable id { t with metatable }
  return .one v

def getMetatable : Value → Run Result
  | .table id => do
    match (← Run.table id).metatable with
    | some m => return .one (.table m)
    | none => return .one .nil
  | _ => return .one .nil

def rawGet (v key : Value) : Run Result := do
  let id ← checkTable 1 "rawget" v
  return .one (← Run.getRaw id key)

def rawSet (v key new : Value) : Run Result := do
  let id ← checkTable 1 "rawset" v
  Run.setRaw id key new
  return .one v

end TypedLua.Library
