import TypedLua.Syntax

/-!
# Erasing annotations

The tree without annotations on locals, parameters and results.
-/

namespace TypedLua

mutual

def Expr.erase : Expr → Expr
  | .nil loc => .nil loc
  | .bool loc b => .bool loc b
  | .number loc n => .number loc n
  | .string loc s => .string loc s
  | .vararg loc => .vararg loc
  | .name loc x => .name loc x
  | .function f => .function f.erase
  | .signature loc params body => .signature loc params body
  | .table loc fields => .table loc (eraseFields fields)
  | .binary loc left op right => .binary loc left.erase op right.erase
  | .unary loc op operand => .unary loc op operand.erase
  | .call loc callee args => .call loc callee.erase (eraseExprs args)
  | .method loc object member args => .method loc object.erase member (eraseExprs args)
  | .index loc object key => .index loc object.erase key.erase
  | .paren loc inner => .paren loc inner.erase
  | .block loc stmts value => .block loc (eraseStmts stmts) value.erase

def eraseExprs : List Expr → List Expr
  | [] => []
  | e :: es => e.erase :: eraseExprs es

def eraseOption : Option Expr → Option Expr
  | none => none
  | some e => some e.erase

def eraseFields : List Field → List Field
  | [] => []
  | .mk loc key value :: fields => .mk loc (eraseOption key) value.erase :: eraseFields fields

def Function.erase : Function → Function
  | .mk loc params isVararg body _ _ label => .mk loc params isVararg body.erase [] none label

def Block.erase : Block → Block
  | .mk loc stmts => .mk loc (eraseStmts stmts)

def eraseOptionBlock : Option Block → Option Block
  | none => none
  | some b => some b.erase

def eraseClauses : List Clause → List Clause
  | [] => []
  | .mk condition body :: clauses => .mk condition.erase body.erase :: eraseClauses clauses

def eraseStmts : List Stmt → List Stmt
  | [] => []
  | s :: ss => s.erase :: eraseStmts ss

def Stmt.erase : Stmt → Stmt
  | .localVars loc names values _ => .localVars loc names (eraseExprs values) []
  | .localFunction loc name f => .localFunction loc name f.erase
  | .assign loc targets values => .assign loc (eraseExprs targets) (eraseExprs values)
  | .expr loc e => .expr loc e.erase
  | .scope loc body => .scope loc body.erase
  | .whileLoop loc condition body => .whileLoop loc condition.erase body.erase
  | .repeatLoop loc body condition => .repeatLoop loc body.erase condition.erase
  | .ifElse loc condition body clauses otherwise =>
    .ifElse loc condition.erase body.erase (eraseClauses clauses) (eraseOptionBlock otherwise)
  | .numericFor loc counter start stop step body =>
    .numericFor loc counter start.erase stop.erase (eraseOption step) body.erase
  | .genericFor loc names iterators body =>
    .genericFor loc names (eraseExprs iterators) body.erase
  | .returnValues loc values => .returnValues loc (eraseExprs values)
  | .breakLoop loc => .breakLoop loc

end

def Chunk.erase (c : Chunk) : Chunk :=
  { c with body := c.body.erase }

end TypedLua
