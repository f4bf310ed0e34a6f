import TypedLua.Syntax

/-!
# Names that blocks declare

A check can put a block in place of an expression, and the names that such blocks declare are the temporaries of
a tree.
-/

namespace TypedLua

mutual

def Expr.temporaries : Expr → List String
  | .nil _ | .bool .. | .number .. | .string .. | .vararg _ | .name .. | .signature .. => []
  | .function f => f.temporaries
  | .table _ fields => fieldsTemporaries fields
  | .binary _ left _ right => left.temporaries ++ right.temporaries
  | .unary _ _ operand => operand.temporaries
  | .call _ callee args => callee.temporaries ++ exprsTemporaries args
  | .method _ object _ args => object.temporaries ++ exprsTemporaries args
  | .index _ object key => object.temporaries ++ key.temporaries
  | .paren _ inner => inner.temporaries
  | .block _ ss value => declaredNames ss ++ stmtsTemporaries ss ++ value.temporaries

def declaredNames : List Stmt → List String
  | [] => []
  | .localVars _ names _ _ :: ss => names ++ declaredNames ss
  | _ :: ss => declaredNames ss

def exprsTemporaries : List Expr → List String
  | [] => []
  | e :: es => e.temporaries ++ exprsTemporaries es

def optionTemporaries : Option Expr → List String
  | none => []
  | some e => e.temporaries

def fieldsTemporaries : List Field → List String
  | [] => []
  | .mk _ key value :: fields => optionTemporaries key ++ value.temporaries ++ fieldsTemporaries fields

def Function.temporaries : Function → List String
  | .mk _ _ _ body _ _ _ => body.temporaries

def Block.temporaries : Block → List String
  | .mk _ ss => stmtsTemporaries ss

def otherwiseTemporaries : Option Block → List String
  | none => []
  | some b => b.temporaries

/-- The names that blocks inside the expressions of further conditions and their blocks declare. -/
def clausesTemporaries : List Clause → List String
  | [] => []
  | .mk condition body :: clauses => condition.temporaries ++ body.temporaries ++ clausesTemporaries clauses

def stmtsTemporaries : List Stmt → List String
  | [] => []
  | s :: ss => s.temporaries ++ stmtsTemporaries ss

def Stmt.temporaries : Stmt → List String
  | .localVars _ _ values _ => exprsTemporaries values
  | .localFunction _ _ f => f.temporaries
  | .assign _ targets values => exprsTemporaries targets ++ exprsTemporaries values
  | .expr _ e => e.temporaries
  | .scope _ body => body.temporaries
  | .whileLoop _ condition body => condition.temporaries ++ body.temporaries
  | .repeatLoop _ body condition => body.temporaries ++ condition.temporaries
  | .ifElse _ condition body clauses otherwise =>
    condition.temporaries ++ body.temporaries ++ clausesTemporaries clauses ++ otherwiseTemporaries otherwise
  | .numericFor _ _ start stop step body =>
    start.temporaries ++ stop.temporaries ++ optionTemporaries step ++ body.temporaries
  | .genericFor _ _ iterators body => exprsTemporaries iterators ++ body.temporaries
  | .returnValues _ values => exprsTemporaries values
  | .breakLoop _ => []

end

def Chunk.temporaries (c : Chunk) : List String := c.body.temporaries

end TypedLua
