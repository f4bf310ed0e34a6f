import TypedLua.Config
import TypedLua.Machine

/-!
# Environments

A fresh environment is a table of globals with the basic functions, the libraries `table`, `string`
and `math`, and the registry of predicates under a name of its own.
-/

namespace TypedLua.Environment

def builtin (b : Builtin) : Value := .function (.builtin b)

def tableOf (entries : List (String × Value)) : Table :=
  entries.foldl (fun t (name, v) => t.update (.string name) v) {}

def basicFunctions (channel : Nat) : List (String × Value) := [
  ("print", builtin (.print channel)), ("type", builtin .typeOf), ("tostring", builtin .tostring),
  ("tonumber", builtin .tonumber), ("pairs", builtin .pairs), ("ipairs", builtin .ipairs),
  ("next", builtin .next), ("select", builtin .select), ("error", builtin .error),
  ("assert", builtin .assert), ("pcall", builtin .pcall), ("xpcall", builtin .xpcall),
  ("unpack", builtin .unpack), ("setmetatable", builtin .setmetatable),
  ("getmetatable", builtin .getmetatable), ("rawget", builtin .rawget),
  ("rawset", builtin .rawset), ("rawequal", builtin .rawequal)]

def tableFunctions : List (String × Value) := [
  ("insert", builtin .tableInsert), ("remove", builtin .tableRemove),
  ("concat", builtin .tableConcat), ("unpack", builtin .unpack), ("sort", builtin .tableSort)]

def stringFunctions : List (String × Value) := [
  ("format", builtin .stringFormat), ("len", builtin .stringLen), ("sub", builtin .stringSub),
  ("upper", builtin .stringUpper), ("lower", builtin .stringLower), ("rep", builtin .stringRep),
  ("reverse", builtin .stringReverse), ("byte", builtin .stringByte),
  ("char", builtin .stringChar)]

def mathEntries : List (String × Value) := [
  ("floor", builtin .mathFloor), ("ceil", builtin .mathCeil), ("abs", builtin .mathAbs),
  ("sqrt", builtin .mathSqrt), ("max", builtin .mathMax), ("min", builtin .mathMin),
  ("fmod", builtin .mathFmod), ("tointeger", builtin .mathToInteger), ("type", builtin .mathType),
  ("huge", .number (.float Binary64.infinity)), ("pi", .number (.float 3.141592653589793)),
  ("maxinteger", .int (Binary64.signBit - 1 : Int)), ("mininteger", .int (-Binary64.signBit : Int))]

def basicPredicates : List (String × Predicate) := [
  ("any", ⟨"any", .any⟩), ("nil", ⟨"nil", .nil⟩), ("number", ⟨"number", .number⟩),
  ("integer", ⟨"integer", .integer⟩), ("string", ⟨"string", .string⟩),
  ("boolean", ⟨"boolean", .boolean⟩), ("table", ⟨"table", .table⟩),
  ("function", ⟨"function", .function⟩)]

def typeConstructors : List (String × Value) := [
  ("__string", builtin .literalType), ("__table", builtin .shapeType),
  ("__function", builtin .functionType), ("__or", builtin .unionType),
  ("__and", builtin .intersectionType), ("__not", builtin .complementType)]

def newPredicates : List (String × Predicate) → Run (List (String × Value))
  | [] => return []
  | (name, p) :: rest => do
    let v ← Run.newPredicate p
    let entries ← newPredicates rest
    return (name, v) :: entries

def newRegistry : Run Nat := do
  let predicates ← newPredicates basicPredicates
  Run.newTable (tableOf (predicates ++ typeConstructors))

/-- A fresh table of globals that prints to a channel, without registry. -/
def newGlobals (channel : Nat) : Run Nat := do
  let tableLibrary ← Run.newTable (tableOf tableFunctions)
  let stringLibrary ← Run.newTable (tableOf stringFunctions)
  let mathLibrary ← Run.newTable (tableOf mathEntries)
  modify fun s => { s with stringMembers := some stringLibrary }
  let globals ← Run.newTable (tableOf (basicFunctions channel ++ [
    ("table", .table tableLibrary), ("string", .table stringLibrary),
    ("math", .table mathLibrary)]))
  Run.setRaw globals (.string "_G") (.table globals)
  return globals

end TypedLua.Environment
