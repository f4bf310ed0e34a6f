import TypedLua.Syntax

/-!
# Types as predicates

An annotation is compiled into an ordinary expression whose value is a predicate.
-/

namespace TypedLua

inductive MalformedCause where
  /-- A function type whose body is not one `return` of one expression. -/
  | functionType
  /-- A declared type that is neither a name nor a call of a name with names. -/
  | declaration
  deriving Repr, DecidableEq

def MalformedCause.message : MalformedCause → String
  | functionType => "malformed function type"
  | declaration => "malformed newtype declaration"

structure Malformed where
  cause : MalformedCause
  loc : Loc
  deriving Repr, DecidableEq

namespace Annotation

def defaultRegistry : String := "types"

def registryEntry (registry : String) (loc : Loc) (entry : String) : Expr :=
  .index loc (.name loc registry) (.string loc entry)

def constructorCall (registry : String) (loc : Loc) (constructor : String) (args : List Expr) :
    Expr :=
  .call loc (registryEntry registry loc ("__" ++ constructor)) args

/-- The name of a constructor of the registry: it starts with two underscores. -/
def isConstructorName (s : String) : Bool :=
  ['_', '_'].isPrefixOf s.toList

def isConstructorCall (registry : String) : Expr → Bool
  | .call _ (.index _ (.name _ table) (.string _ entry)) _ =>
    table == registry && isConstructorName entry
  | _ => false

def isParenthesised : Expr → Bool
  | .paren .. => true
  | _ => false

def isCompiled (registry : String) (e : Expr) : Bool :=
  isParenthesised e || e.isQualifiedName || isConstructorCall registry e

mutual

def compileType (registry : String) (bound : List String) : Expr → Except Malformed Expr
  | .name loc x =>
    if bound.contains x then .ok (.name loc x) else .ok (registryEntry registry loc x)
  | .nil loc => .ok (registryEntry registry loc "nil")
  | .string loc s => .ok (constructorCall registry loc "string" [.string loc s])
  | .table loc fields => do
    let fields ← compileFields registry bound fields
    return constructorCall registry loc "table" [.table loc fields]
  | .binary loc left op right => do
    let left ← compileType registry bound left
    let right ← compileType registry bound right
    return constructorCall registry loc op.text [left, right]
  | .unary loc op operand => do
    let operand ← compileType registry bound operand
    return constructorCall registry loc op.text [operand]
  | .signature loc params (.mk _ [.returnValues _ [result]]) => do
    let params ← compileTypes registry bound params
    let result ← compileType registry bound result
    let shape := Expr.table loc (params.map fun p => .mk none none p)
    return constructorCall registry loc "function" [shape, result]
  | .signature loc _ _ => .error ⟨.functionType, loc⟩
  | .call loc callee args =>
    if isCompiled registry (.call loc callee args) then .ok (.call loc callee args)
    else do
      let callee ← compileType registry bound callee
      let args ← compileTypes registry bound args
      return .call loc callee args
  | e => .ok e

def compileTypes (registry : String) (bound : List String) :
    List Expr → Except Malformed (List Expr)
  | [] => .ok []
  | e :: es => do
    let e ← compileType registry bound e
    let es ← compileTypes registry bound es
    return e :: es

def compileFields (registry : String) (bound : List String) :
    List Field → Except Malformed (List Field)
  | [] => .ok []
  | .mk loc key value :: fields => do
    let value ← compileType registry bound value
    let fields ← compileFields registry bound fields
    return .mk loc key value :: fields

end

def namesOf? : List Expr → Option (List String)
  | [] => some []
  | .name _ x :: es => (namesOf? es).map (x :: ·)
  | _ => none

/-- The assignment to the registry that declares a type: a predicate for a plain name, and a function
from predicates to a predicate for a name with parameters. -/
def compileDeclaration (registry : String) (declared type : Expr) : Except Malformed Stmt :=
  match declared with
  | .name loc x => do
    let predicate ← compileType registry [] type
    return .assign loc [registryEntry registry loc x] [predicate]
  | .call loc (.name _ x) args =>
    match namesOf? args with
    | some params => do
      let predicate ← compileType registry params type
      let body := Block.mk type.loc [.returnValues type.loc [predicate]]
      let constructor := Function.mk loc params false body [] none (some x)
      return .assign loc [registryEntry registry loc x] [.function constructor]
    | none => .error ⟨.declaration, declared.loc⟩
  | _ => .error ⟨.declaration, declared.loc⟩

end Annotation

end TypedLua
