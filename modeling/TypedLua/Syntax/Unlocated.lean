import TypedLua.Syntax

/-!
# Trees up to places

The tree without the places its nodes were read from.
-/

namespace TypedLua

mutual

def Expr.unlocated : Expr → Expr
  | .nil _ => .nil none
  | .bool _ b => .bool none b
  | .number _ n => .number none n
  | .string _ s => .string none s
  | .vararg _ => .vararg none
  | .name _ x => .name none x
  | .function f => .function f.unlocated
  | .signature _ params body => .signature none (unlocatedExprs params) body.unlocated
  | .table _ fields => .table none (unlocatedFields fields)
  | .binary _ left op right => .binary none left.unlocated op right.unlocated
  | .unary _ op operand => .unary none op operand.unlocated
  | .call _ callee args => .call none callee.unlocated (unlocatedExprs args)
  | .method _ object member args => .method none object.unlocated member (unlocatedExprs args)
  | .index _ object key => .index none object.unlocated key.unlocated
  | .paren _ inner => .paren none inner.unlocated
  | .block _ stmts value => .block none (unlocatedStmts stmts) value.unlocated

def unlocatedExprs : List Expr → List Expr
  | [] => []
  | e :: es => e.unlocated :: unlocatedExprs es

def unlocatedOption : Option Expr → Option Expr
  | none => none
  | some e => some e.unlocated

def unlocatedFields : List Field → List Field
  | [] => []
  | .mk _ key value :: fields =>
    .mk none (unlocatedOption key) value.unlocated :: unlocatedFields fields

def unlocatedAnnotations : List Annotation → List Annotation
  | [] => []
  | .mk name type :: rest => .mk name type.unlocated :: unlocatedAnnotations rest

def Function.unlocated : Function → Function
  | .mk _ params isVararg body paramTypes returnType label =>
    .mk none params isVararg body.unlocated (unlocatedAnnotations paramTypes)
      (unlocatedOption returnType) label

def Block.unlocated : Block → Block
  | .mk _ stmts => .mk none (unlocatedStmts stmts)

def unlocatedOptionBlock : Option Block → Option Block
  | none => none
  | some b => some b.unlocated

def unlocatedClauses : List Clause → List Clause
  | [] => []
  | .mk condition body :: rest => .mk condition.unlocated body.unlocated :: unlocatedClauses rest

def unlocatedStmts : List Stmt → List Stmt
  | [] => []
  | s :: ss => s.unlocated :: unlocatedStmts ss

def Stmt.unlocated : Stmt → Stmt
  | .localVars _ names values types =>
    .localVars none names (unlocatedExprs values) (unlocatedAnnotations types)
  | .localFunction _ name f => .localFunction none name f.unlocated
  | .assign _ targets values => .assign none (unlocatedExprs targets) (unlocatedExprs values)
  | .expr _ e => .expr none e.unlocated
  | .scope _ body => .scope none body.unlocated
  | .whileLoop _ condition body => .whileLoop none condition.unlocated body.unlocated
  | .repeatLoop _ body condition => .repeatLoop none body.unlocated condition.unlocated
  | .ifElse _ condition body clauses otherwise =>
    .ifElse none condition.unlocated body.unlocated (unlocatedClauses clauses)
      (unlocatedOptionBlock otherwise)
  | .numericFor _ counter start stop step body =>
    .numericFor none counter start.unlocated stop.unlocated (unlocatedOption step) body.unlocated
  | .genericFor _ names iterators body =>
    .genericFor none names (unlocatedExprs iterators) body.unlocated
  | .returnValues _ values => .returnValues none (unlocatedExprs values)
  | .breakLoop _ => .breakLoop none

end

deriving instance BEq for Expr, Field, Function, Annotation, Clause, Block, Stmt

def Expr.same (a b : Expr) : Bool :=
  a.unlocated == b.unlocated

end TypedLua
