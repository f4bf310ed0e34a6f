import TypedLua.Proofs.Syntax.Induction

/-!
# The types of a tree

The types that the code of a tree is annotated with.
-/

namespace TypedLua

def Annotation.type : Annotation → Expr
  | .mk _ type => type

mutual

def Expr.types : Expr → List Expr
  | .nil _ | .bool .. | .number .. | .string .. | .vararg _ | .name .. | .signature .. => []
  | .function f => f.types
  | .table _ fields => fieldsTypes fields
  | .binary _ left _ right => left.types ++ right.types
  | .unary _ _ operand => operand.types
  | .call _ callee args => callee.types ++ exprsTypes args
  | .method _ object _ args => object.types ++ exprsTypes args
  | .index _ object key => object.types ++ key.types
  | .paren _ inner => inner.types
  | .block _ ss value => stmtsTypes ss ++ value.types

def exprsTypes : List Expr → List Expr
  | [] => []
  | e :: es => e.types ++ exprsTypes es

def optionTypes : Option Expr → List Expr
  | none => []
  | some e => e.types

def fieldsTypes : List Field → List Expr
  | [] => []
  | .mk _ key value :: fields => optionTypes key ++ value.types ++ fieldsTypes fields

def Function.types : Function → List Expr
  | .mk _ _ _ body paramTypes returnType _ => paramTypes.map (·.type) ++ returnType.toList ++ body.types

def Block.types : Block → List Expr
  | .mk _ ss => stmtsTypes ss

def otherwiseTypes : Option Block → List Expr
  | none => []
  | some b => b.types

def clausesTypes : List Clause → List Expr
  | [] => []
  | .mk condition body :: clauses => condition.types ++ body.types ++ clausesTypes clauses

def stmtsTypes : List Stmt → List Expr
  | [] => []
  | s :: ss => s.types ++ stmtsTypes ss

def Stmt.types : Stmt → List Expr
  | .localVars _ _ values types => exprsTypes values ++ types.map (·.type)
  | .localFunction _ _ f => f.types
  | .assign _ targets values => exprsTypes targets ++ exprsTypes values
  | .expr _ e => e.types
  | .scope _ body => body.types
  | .whileLoop _ condition body => condition.types ++ body.types
  | .repeatLoop _ body condition => body.types ++ condition.types
  | .ifElse _ condition body clauses otherwise =>
    condition.types ++ body.types ++ clausesTypes clauses ++ otherwiseTypes otherwise
  | .numericFor _ _ start stop step body => start.types ++ stop.types ++ optionTypes step ++ body.types
  | .genericFor _ _ iterators body => exprsTypes iterators ++ body.types
  | .returnValues _ values => exprsTypes values
  | .breakLoop _ => []

end

def Chunk.types (c : Chunk) : List Expr := c.body.types

end TypedLua
