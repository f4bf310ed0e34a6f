import TypedLua.Syntax

/-!
# Trees that create functions

Whether a function literal stands anywhere in a tree, annotations and types included.
-/

namespace TypedLua

mutual

def Expr.hasFunction : Expr → Bool
  | .nil _ | .bool .. | .number .. | .string .. | .vararg _ | .name .. => false
  | .function _ => true
  | .signature _ params body => exprsHaveFunction params || body.hasFunction
  | .table _ fields => fieldsHaveFunction fields
  | .binary _ left _ right => left.hasFunction || right.hasFunction
  | .unary _ _ operand => operand.hasFunction
  | .call _ callee args => callee.hasFunction || exprsHaveFunction args
  | .method _ object _ args => object.hasFunction || exprsHaveFunction args
  | .index _ object key => object.hasFunction || key.hasFunction
  | .paren _ inner => inner.hasFunction
  | .block _ stmts value => stmtsHaveFunction stmts || value.hasFunction

def exprsHaveFunction : List Expr → Bool
  | [] => false
  | e :: es => e.hasFunction || exprsHaveFunction es

def optionHasFunction : Option Expr → Bool
  | none => false
  | some e => e.hasFunction

def fieldsHaveFunction : List Field → Bool
  | [] => false
  | .mk _ key value :: fields =>
    optionHasFunction key || value.hasFunction || fieldsHaveFunction fields

def annotationsHaveFunction : List Annotation → Bool
  | [] => false
  | .mk _ type :: types => type.hasFunction || annotationsHaveFunction types

def Block.hasFunction : Block → Bool
  | .mk _ stmts => stmtsHaveFunction stmts

def optionBlockHasFunction : Option Block → Bool
  | none => false
  | some b => b.hasFunction

def clausesHaveFunction : List Clause → Bool
  | [] => false
  | .mk condition body :: clauses =>
    condition.hasFunction || body.hasFunction || clausesHaveFunction clauses

def stmtsHaveFunction : List Stmt → Bool
  | [] => false
  | s :: ss => s.hasFunction || stmtsHaveFunction ss

def Stmt.hasFunction : Stmt → Bool
  | .localVars _ _ values types => annotationsHaveFunction types || exprsHaveFunction values
  | .localFunction .. => true
  | .assign _ targets values => exprsHaveFunction targets || exprsHaveFunction values
  | .expr _ e => e.hasFunction
  | .scope _ body => body.hasFunction
  | .whileLoop _ condition body => condition.hasFunction || body.hasFunction
  | .repeatLoop _ body condition => body.hasFunction || condition.hasFunction
  | .ifElse _ condition body clauses otherwise =>
    condition.hasFunction || body.hasFunction || clausesHaveFunction clauses ||
      optionBlockHasFunction otherwise
  | .numericFor _ _ start stop step body =>
    start.hasFunction || stop.hasFunction || optionHasFunction step || body.hasFunction
  | .genericFor _ _ iterators body => exprsHaveFunction iterators || body.hasFunction
  | .returnValues _ values => exprsHaveFunction values
  | .breakLoop _ => false

end

end TypedLua
