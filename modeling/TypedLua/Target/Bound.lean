import TypedLua.Target

/-!
# The variables of a definition

A definition owns its parameters and every variable that its body binds, except those it declares to
belong to an enclosing definition.
-/

namespace TypedLua.Target

mutual

def Expr.bound : Expr → List String
  | .null | .bool _ | .number _ | .infinity | .string _ | .var _ | .global _ | .firstVararg => []
  | .table items tail => itemsBound items ++ tailBound tail
  | .binary _ left right => left.bound ++ right.bound
  | .andThen temp left right | .orElse temp left right => temp :: (left.bound ++ right.bound)
  | .negation operand | .length operand | .minus operand => operand.bound
  | .first call => call.bound
  | .index object key => object.bound ++ key.bound
  | .last parts value => partsBound parts ++ value.bound

def Call.bound : Call → List String
  | .call callee args tail => callee.bound ++ exprsBound args ++ tailBound tail
  | .invoke object _ args tail => object.bound ++ exprsBound args ++ tailBound tail
  | .varargs => []
  | .single value => value.bound

def exprsBound : List Expr → List String
  | [] => []
  | e :: es => e.bound ++ exprsBound es

def tailBound : Option Tail → List String
  | none | some .varargs => []
  | some (.expand call) => call.bound

def partsBound : List Part → List String
  | [] => []
  | .run call :: parts => call.bound ++ partsBound parts
  | .bind x value :: parts => x :: (value.bound ++ partsBound parts)

def itemsBound : List Item → List String
  | [] => []
  | .keyed key value :: items => key.bound ++ value.bound ++ itemsBound items
  | .positional value :: items => value.bound ++ itemsBound items

end

def listBound (args : List Expr) (tail : Option Tail) : List String :=
  exprsBound args ++ tailBound tail

def Cond.bound : Cond → List String
  | truthy value | plain value => value.bound

def Answer.bound : Answer → List String
  | call value => value.bound
  | pack args tail => listBound args tail

def Def.name : Def → String
  | .mk name .. => name

mutual

def Stmt.bound : Stmt → List String
  | .assignNull names => names
  | .assign x value => x :: value.bound
  | .assignTuple names values => names ++ exprsBound values
  | .assignAdjusted names args tail => names ++ listBound args tail
  | .setGlobal _ value => value.bound
  | .setIndex object key value => object.bound ++ key.bound ++ value.bound
  | .run call => call.bound
  | .ifElse condition body otherwise => condition.bound ++ stmtsBound body ++ otherwise.bound
  | .whileLoop condition body => condition.bound ++ stmtsBound body
  | .forever body => stmtsBound body
  | .forRange x start stop step body =>
    x :: (start.bound ++ stop.bound ++ exprsBound step.toList ++ stmtsBound body)
  | .forEach names args tail body => names ++ listBound args tail ++ stmtsBound body
  | .define d => [d.name]
  | .iterate flow _ _ => [flow]
  | .breakOn _ | .returnOn .. | .answerBreak | .breakLoop | .pass => []
  | .answer _ value => value.bound

def OrElse.bound : OrElse → List String
  | .none => []
  | .elseIf condition body otherwise => condition.bound ++ stmtsBound body ++ otherwise.bound
  | .otherwise body => stmtsBound body

def stmtsBound : List Stmt → List String
  | [] => []
  | s :: ss => s.bound ++ stmtsBound ss

end

def Def.own : Def → List String
  | .mk _ params _ nonlocals body =>
    ((stmtsBound body).filter fun x => !params.contains x && !nonlocals.contains x).eraseDups

section Equations

-- The equations of these functions are made here, so that the proofs that open them need not wait.
attribute [local simp] Expr.bound Call.bound exprsBound tailBound partsBound itemsBound Stmt.bound
  OrElse.bound stmtsBound

end Equations

end TypedLua.Target
