import TypedLua.Library.Arithmetic
import TypedLua.Library.Basic
import TypedLua.Library.Format
import TypedLua.Library.Sequence
import TypedLua.Library.Text
import TypedLua.Library.Types

/-!
# Calling library functions

A call first checks the number of arguments and then hands them to the function.
-/

namespace TypedLua.Library

def single (v : Run Value) : Run Result := do
  return .one (← v)

def silent (action : Run Unit) : Run Result := do
  action
  return .one .nil

def checkArity (s : Signature) (args : List Value) : Run Unit :=
  match s.check args.length with
  | some error => Run.trap (.arity error)
  | none => return ()

def dispatch (call : Caller) (b : Builtin) (args : List Value) : Run Result :=
  let arg (i : Nat) : Value := args.getD i .nil
  match b with
  | .print channel => silent (print call channel args)
  | .typeOf =>
    match args with
    | [] => badArgument 1 "type" .valueExpected
    | v :: _ => return .one (.string v.typeName)
  | .tostring => single (display call (arg 0))
  | .tonumber => single (toNumber (arg 0) args[1]?)
  | .pairs => pairs (arg 0)
  | .ipairs => ipairs (arg 0)
  | .ipairsStep => ipairsStep call (arg 0) (arg 1)
  | .next => next (arg 0) (arg 1)
  | .select => select (arg 0) (args.drop 1)
  | .error => Run.raise (arg 0)
  | .assert => assert args
  | .pcall => Access.protect call (arg 0) (args.drop 1)
  | .xpcall => xpcall call (arg 0) (arg 1) (args.drop 2)
  | .unpack => unpack (arg 0) args[1]? args[2]?
  | .setmetatable => setMetatable (arg 0) (arg 1)
  | .getmetatable => getMetatable (arg 0)
  | .rawget => rawGet (arg 0) (arg 1)
  | .rawset => rawSet (arg 0) (arg 1) (arg 2)
  | .rawequal => return .one (.bool ((arg 0).eq (arg 1)))
  | .tableInsert => silent (tableInsert (arg 0) (args.drop 1))
  | .tableRemove => single (tableRemove (arg 0) args[1]?)
  | .tableConcat => single (tableConcat (arg 0) args[1]? args[2]? args[3]?)
  | .tableSort => silent (tableSort call (arg 0) (arg 1))
  | .stringFormat => single (stringFormat call (arg 0) (args.drop 1))
  | .stringLen => single (stringLen (arg 0))
  | .stringSub => single (stringSub (arg 0) args[1]? args[2]?)
  | .stringUpper => single (stringUpper (arg 0))
  | .stringLower => single (stringLower (arg 0))
  | .stringRep => single (stringRep (arg 0) (arg 1) args[2]?)
  | .stringReverse => single (stringReverse (arg 0))
  | .stringByte => stringByte (arg 0) args[1]? args[2]?
  | .stringChar => single (stringChar args)
  | .mathFloor => single (mathFloor (arg 0))
  | .mathCeil => single (mathCeil (arg 0))
  | .mathAbs => single (mathAbs (arg 0))
  | .mathSqrt => single (mathSqrt (arg 0))
  | .mathMax => single (mathMax args)
  | .mathMin => single (mathMin args)
  | .mathFmod => single (mathFmod (arg 0) (arg 1))
  | .mathToInteger => return .one (mathToInteger (arg 0))
  | .mathType => return .one (mathType (arg 0))
  | .literalType => single (literalType (arg 0))
  | .shapeType => single (shapeType (arg 0))
  | .functionType => single (functionType (arg 0) (arg 1))
  | .unionType => single (unionType (arg 0) (arg 1))
  | .intersectionType => single (intersectionType (arg 0) (arg 1))
  | .complementType => single (complementType (arg 0))

def apply (call : Caller) (b : Builtin) (args : List Value) : Run Result := do
  checkArity b.signature args
  dispatch call b args

end TypedLua.Library
