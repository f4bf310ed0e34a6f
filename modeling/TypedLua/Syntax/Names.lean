import TypedLua.Syntax

/-!
# The names of a tree

Every name that a tree mentions: names that are read or assigned, declared locals, local functions,
parameters and loop variables, also inside annotations and types.
-/

namespace TypedLua

mutual

def Expr.names : Expr → List String
  | .nil _ | .bool .. | .number .. | .string .. | .vararg _ => []
  | .name _ x => [x]
  | .function f => f.names
  | .signature _ params body => exprNames params ++ body.names
  | .table _ fields => fieldNames fields
  | .binary _ left _ right => left.names ++ right.names
  | .unary _ _ operand => operand.names
  | .call _ callee args => callee.names ++ exprNames args
  | .method _ object _ args => object.names ++ exprNames args
  | .index _ object key => object.names ++ key.names
  | .paren _ inner => inner.names
  | .block _ stmts value => stmtNames stmts ++ value.names

def exprNames : List Expr → List String
  | [] => []
  | e :: es => e.names ++ exprNames es

def optionNames : Option Expr → List String
  | none => []
  | some e => e.names

def fieldNames : List Field → List String
  | [] => []
  | .mk _ key value :: fields => optionNames key ++ value.names ++ fieldNames fields

def annotationNames : List Annotation → List String
  | [] => []
  | .mk _ type :: types => type.names ++ annotationNames types

def Function.names : Function → List String
  | .mk _ params _ body paramTypes returnType _ =>
    params ++ annotationNames paramTypes ++ optionNames returnType ++ body.names

def Block.names : Block → List String
  | .mk _ stmts => stmtNames stmts

def optionBlockNames : Option Block → List String
  | none => []
  | some b => b.names

def clauseNames : List Clause → List String
  | [] => []
  | .mk condition body :: clauses => condition.names ++ body.names ++ clauseNames clauses

def stmtNames : List Stmt → List String
  | [] => []
  | s :: ss => s.names ++ stmtNames ss

def Stmt.names : Stmt → List String
  | .localVars _ names values types => names ++ annotationNames types ++ exprNames values
  | .localFunction _ name f => name :: f.names
  | .assign _ targets values => exprNames targets ++ exprNames values
  | .expr _ e => e.names
  | .scope _ body => body.names
  | .whileLoop _ condition body => condition.names ++ body.names
  | .repeatLoop _ body condition => body.names ++ condition.names
  | .ifElse _ condition body clauses otherwise =>
    condition.names ++ body.names ++ clauseNames clauses ++ optionBlockNames otherwise
  | .numericFor _ counter start stop step body =>
    counter :: (start.names ++ stop.names ++ optionNames step ++ body.names)
  | .genericFor _ names iterators body => names ++ exprNames iterators ++ body.names
  | .returnValues _ values => exprNames values
  | .breakLoop _ => []

end

def Chunk.names (c : Chunk) : List String :=
  c.body.names

end TypedLua
