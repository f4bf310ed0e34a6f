import TypedLua.Number

/-!
# Functions of the library

The functions that a fresh environment offers, with what each accepts.
-/

namespace TypedLua

inductive Builtin where
  | print (channel : Nat)
  | typeOf | tostring | tonumber | pairs | ipairs
  | ipairsStep
  | next | select | error | assert | pcall | xpcall | unpack
  | setmetatable | getmetatable | rawget | rawset | rawequal
  | tableInsert | tableRemove | tableConcat | tableSort
  | stringFormat | stringLen | stringSub | stringUpper | stringLower | stringRep | stringReverse
  | stringByte | stringChar
  | mathFloor | mathCeil | mathAbs | mathSqrt | mathMax | mathMin | mathFmod | mathToInteger
  | mathType
  | literalType | shapeType | functionType | unionType | intersectionType | complementType
  deriving Repr, DecidableEq, Inhabited

structure Signature where
  name : String
  required : List String
  optional : Nat := 0
  variadic : Bool := false
  deriving Repr, DecidableEq

inductive ArityError where
  | missing (function : String) (names : List String)
  | tooMany (signature : Signature) (given : Nat)
  deriving Repr, DecidableEq

namespace Signature

def most (s : Signature) : Nat :=
  s.required.length + s.optional

def check (s : Signature) (given : Nat) : Option ArityError :=
  if given < s.required.length then some (.missing s.name (s.required.drop given))
  else if !s.variadic && s.most < given then some (.tooMany s given)
  else none

def range (s : Signature) : String :=
  if s.optional = 0 then s!"{s.most}" else s!"from {s.required.length} to {s.most}"

end Signature

def wordList : List String → String
  | [] => ""
  | [x] => "'" ++ x ++ "'"
  | [x, y] => "'" ++ x ++ "' and '" ++ y ++ "'"
  | xs =>
    let quoted := xs.map fun x => "'" ++ x ++ "'"
    ", ".intercalate quoted.dropLast ++ ", and " ++ quoted.getLastD ""

def ArityError.message : ArityError → String
  | missing function names =>
    let plural := if names.length = 1 then "" else "s"
    s!"{function}() missing {names.length} required positional argument{plural}: "
      ++ wordList names
  | tooMany s given =>
    let plural := if s.optional = 0 && s.most = 1 then "" else "s"
    let range := s.range
    let verb := if given = 1 then "was" else "were"
    s!"{s.name}() takes {range} positional argument{plural} but {given} {verb} given"

def Builtin.signature : Builtin → Signature
  | print _ => { name := "create_environment.<locals>.lua_print", required := [], variadic := true }
  | typeOf => { name := "lua_type_of", required := [], variadic := true }
  | tostring => { name := "lua_tostring", required := [], optional := 1 }
  | tonumber => { name := "tonumber", required := ["value"], optional := 1 }
  | pairs => { name := "lua_pairs", required := ["table"] }
  | ipairs => { name := "lua_ipairs", required := ["table"] }
  | ipairsStep => { name := "_ipairs_step", required := ["table", "i"] }
  | next => { name := "lua_next", required := ["table"], optional := 1 }
  | select => { name := "lua_select", required := ["n"], variadic := true }
  | error => { name := "lua_error", required := [], optional := 2 }
  | assert => { name := "lua_assert", required := [], variadic := true }
  | pcall => { name := "protected", required := ["function"], variadic := true }
  | xpcall => { name := "lua_xpcall", required := ["function", "handler"], variadic := true }
  | unpack => { name := "lua_unpack", required := ["table"], optional := 2 }
  | setmetatable => { name := "lua_setmetatable", required := ["table", "metatable"] }
  | getmetatable => { name := "lua_getmetatable", required := ["value"] }
  | rawget => { name := "lua_rawget", required := ["table", "key"] }
  | rawset => { name := "lua_rawset", required := ["table", "key", "value"] }
  | rawequal => { name := "eq", required := ["a", "b"] }
  | tableInsert => { name := "table_insert", required := ["table"], variadic := true }
  | tableRemove => { name := "table_remove", required := ["table"], optional := 1 }
  | tableConcat => { name := "table_concat", required := ["table"], optional := 3 }
  | tableSort => { name := "table_sort", required := ["table"], optional := 1 }
  | stringFormat => { name := "string_format", required := ["fmt"], variadic := true }
  | stringLen => { name := "string_len", required := ["s"] }
  | stringSub => { name := "string_sub", required := ["s"], optional := 2 }
  | stringUpper => { name := "string_upper", required := ["s"] }
  | stringLower => { name := "string_lower", required := ["s"] }
  | stringRep => { name := "string_rep", required := ["s", "n"], optional := 1 }
  | stringReverse => { name := "string_reverse", required := ["s"] }
  | stringByte => { name := "string_byte", required := ["s"], optional := 2 }
  | stringChar => { name := "string_char", required := [], variadic := true }
  | mathFloor => { name := "math_floor", required := ["x"] }
  | mathCeil => { name := "math_ceil", required := ["x"] }
  | mathAbs => { name := "math_abs", required := ["x"] }
  | mathSqrt => { name := "math_sqrt", required := ["x"] }
  | mathMax => { name := "math_max", required := [], variadic := true }
  | mathMin => { name := "math_min", required := [], variadic := true }
  | mathFmod => { name := "math_fmod", required := ["a", "b"] }
  | mathToInteger => { name := "math_tointeger", required := ["x"] }
  | mathType => { name := "math_type", required := ["x"] }
  | literalType => { name := "string_type", required := ["expected"] }
  | shapeType => { name := "table_type", required := ["shape"] }
  | functionType => { name := "function_type", required := [], optional := 2 }
  | unionType => { name := "union_type", required := ["left", "right"] }
  | intersectionType => { name := "intersection_type", required := ["left", "right"] }
  | complementType => { name := "complement_type", required := ["inner"] }

end TypedLua
