import TypedLua.Operator
import TypedLua.Store

/-!
# Access to tables and calls

Reading a field follows the `__index` entries of metatables: from table to table while the key is
missing, and a function at the end of the chain is asked.
-/

namespace TypedLua

abbrev Caller := Value → List Value → Run Result

namespace Access

def noFields {α : Type} (object key : Value) : Run α := do
  Run.complain (.index object.typeName (← Run.textOf key))

def indexFrom (call : Caller) (key : Value) : Nat → Value → Run Value
  | 0, _ => Run.exhausted
  | n + 1, .table id => do
    let t ← Run.table id
    let v := t.get key
    if !v.isNil then return v
    match t.metatable with
    | none => return .nil
    | some m =>
      match ← Run.getRaw m (.string "__index") with
      | .nil => return .nil
      | .table next => indexFrom call key n (.table next)
      | .function f => return (← call (.function f) [.table id, key]).first
      | other => Run.trap (.notCallable other.kindName)
  | _ + 1, .string s => do
    match (← get).stringMembers with
    | some members => Run.getRaw members key
    | none => noFields (.string s) key
  | _ + 1, object => noFields object key

def index (call : Caller) (object key : Value) : Run Value := do
  indexFrom call key ((← get).tables.size + 1) object

def setIndex (object key v : Value) : Run Unit :=
  match object with
  | .table id => Run.setRaw id key v
  | other => noFields other key

def invoke (call : Caller) (object : Value) (member : String) (args : List Value) : Run Result := do
  match ← index call object (.string member) with
  | .nil => Run.complain (.callMethod member)
  | f => call f (object :: args)

def length : Value → Run Value
  | .string s =>
    match Text.surrogateRun? s with
    | some run => Run.trap (.surrogates run)
    | none => return .int s.utf8ByteSize
  | .table id => return .int (← Run.table id).border
  | other => Run.complain (.length other.typeName)

inductive Entry where
  | keyed (key v : Value)
  | positional (v : Value)
  deriving Repr, DecidableEq

/-- A table filled with entries; positional ones count up from a number. -/
def fill (t : Table) (position : Int) : List Entry → Except KeyError (Table × Int)
  | [] => .ok (t, position)
  | .keyed key v :: rest => do
    let t ← t.set key v
    fill t position rest
  | .positional v :: rest => fill (t.update (.int position) v) (position + 1) rest

def makeTable (entries : List Entry) (tail : List Value) : Run Value := do
  match fill {} 1 entries with
  | .ok (t, position) => return .table (← Run.newTable (t.appendFrom position tail))
  | .error e => Run.fail e.toFault

/-- Runs a call and reports how it ended: true and its values, or false and the value of the
error. -/
def protect (call : Caller) (f : Value) (args : List Value) : Run Result := do
  match ← Run.attempt (call f args) with
  | .ok r => return .many (.bool true :: r.toList)
  | .error fault =>
    match fault.caught? with
    | some v => return .many [.bool false, v]
    | none => Run.fail fault

end Access

end TypedLua
