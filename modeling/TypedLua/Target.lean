import TypedLua.Syntax

/-!
# The target language

Generated modules use a small part of Python: nested function definitions with default parameters,
assignments, conditionals, two kinds of loops, and expressions that call the helpers of the run-time
module `_rt`.
-/

namespace TypedLua.Target

mutual

inductive Expr where
  | null
  | bool (value : Bool)
  | number (value : Number)
  | infinity
  | string (value : String)
  | var (name : String)
  | global (name : String)
  | firstVararg
  | table (items : List Item) (tail : Option Tail)
  | binary (op : BinaryOp) (left right : Expr)
  /-- The left operand if it is false, and else the right one; `temp` holds the left. -/
  | andThen (temp : String) (left right : Expr)
  /-- The left operand if it is true, and else the right one; `temp` holds the left. -/
  | orElse (temp : String) (left right : Expr)
  | negation (operand : Expr)
  | length (operand : Expr)
  | minus (operand : Expr)
  | first (call : Call)
  | index (object key : Expr)
  /-- The last component of a tuple: the parts are evaluated in order, and then the value. -/
  | last (parts : List Part) (value : Expr)

inductive Call where
  | call (callee : Expr) (args : List Expr) (tail : Option Tail)
  | invoke (object : Expr) (member : String) (args : List Expr) (tail : Option Tail)
  | varargs
  | single (value : Expr)

inductive Tail where
  | varargs
  | expand (call : Call)

inductive Part where
  | run (call : Call)
  | bind (name : String) (value : Expr)

inductive Item where
  | keyed (key value : Expr)
  | positional (value : Expr)

end

/-- A condition: a value tested for truth, or an expression that is a boolean already. -/
inductive Cond where
  | truthy (value : Expr)
  | plain (value : Expr)

inductive Rest where
  | varargs
  | ignored
  | none
  deriving Repr, DecidableEq

inductive Answer where
  | call (value : Call)
  | pack (args : List Expr) (tail : Option Tail)

mutual

inductive Stmt where
  | assignNull (names : List String)
  | assign (name : String) (value : Expr)
  | assignTuple (names : List String) (values : List Expr)
  /-- Several variables at once, from a list cut or lengthened to their number. -/
  | assignAdjusted (names : List String) (args : List Expr) (tail : Option Tail)
  | setGlobal (name : String) (value : Expr)
  | setIndex (object key value : Expr)
  | run (call : Call)
  | ifElse (condition : Cond) (body : List Stmt) (otherwise : OrElse)
  | whileLoop (condition : Cond) (body : List Stmt)
  | forever (body : List Stmt)
  | forRange (name : String) (start stop : Expr) (step : Option Expr) (body : List Stmt)
  | forEach (names : List String) (args : List Expr) (tail : Option Tail) (body : List Stmt)
  | define (d : Def)
  | iterate (flow function : String) (args : List String)
  | breakOn (flow : String)
  /-- Returns what the iteration returns; `forward` hands the tuple on to an enclosing iteration. -/
  | returnOn (flow : String) (forward : Bool)
  /-- Returns a result; `boxed` wraps it in a tuple, inside an iteration. -/
  | answer (boxed : Bool) (value : Answer)
  | answerBreak
  | breakLoop
  | pass

inductive OrElse where
  | none
  | elseIf (condition : Cond) (body : List Stmt) (otherwise : OrElse)
  | otherwise (body : List Stmt)

inductive Def where
  | mk (name : String) (params : List String) (rest : Rest) (nonlocals : List String)
      (body : List Stmt)

end

/-- A generated module: the body of the function that runs the chunk. -/
structure Module where
  body : List Stmt

end TypedLua.Target
