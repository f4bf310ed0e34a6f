import TypedLua.Number
import TypedLua.Source.Position

/-!
# Syntax trees

The tree of a typed chunk.
-/

namespace TypedLua

abbrev Loc := Option Position

inductive BinaryOp where
  | add | sub | mul | div | idiv | mod | pow | concat
  | eq | ne | lt | le | gt | ge
  | and | or
  deriving Repr, DecidableEq, Inhabited

inductive UnaryOp where
  | neg | not | len
  deriving Repr, DecidableEq, Inhabited

namespace BinaryOp

def all : List BinaryOp := [
  add, sub, mul, div, idiv, mod, pow, concat, eq, ne, lt, le, gt, ge, and, or]

def text : BinaryOp → String
  | add => "add" | sub => "sub" | mul => "mul" | div => "div" | idiv => "idiv" | mod => "mod"
  | pow => "pow" | concat => "concat" | eq => "eq" | ne => "ne" | lt => "lt" | le => "le"
  | gt => "gt" | ge => "ge" | and => "and" | or => "or"

def isComparison : BinaryOp → Bool
  | eq | ne | lt | le | gt | ge => true
  | _ => false

end BinaryOp

namespace UnaryOp

def all : List UnaryOp := [neg, not, len]

def text : UnaryOp → String
  | neg => "neg" | not => "not" | len => "len"

end UnaryOp

mutual

inductive Expr where
  | nil (loc : Loc)
  | bool (loc : Loc) (value : Bool)
  | number (loc : Loc) (value : Number)
  | string (loc : Loc) (value : String)
  | vararg (loc : Loc)
  | name (loc : Loc) (text : String)
  | function (f : Function)
  /-- A function type: parameter types and a body that returns the result type. -/
  | signature (loc : Loc) (params : List Expr) (body : Block)
  | table (loc : Loc) (fields : List Field)
  | binary (loc : Loc) (left : Expr) (op : BinaryOp) (right : Expr)
  | unary (loc : Loc) (op : UnaryOp) (operand : Expr)
  | call (loc : Loc) (callee : Expr) (args : List Expr)
  | method (loc : Loc) (object : Expr) (member : String) (args : List Expr)
  | index (loc : Loc) (object : Expr) (key : Expr)
  | paren (loc : Loc) (inner : Expr)
  | block (loc : Loc) (stmts : List Stmt) (value : Expr)

/-- An entry of a table constructor; an item without key is positional. -/
inductive Field where
  | mk (loc : Loc) (key : Option Expr) (value : Expr)

inductive Function where
  | mk (loc : Loc) (params : List String) (isVararg : Bool) (body : Block)
      (paramTypes : List Annotation) (returnType : Option Expr) (label : Option String)

inductive Annotation where
  | mk (name : String) (type : Expr)

inductive Clause where
  | mk (condition : Expr) (body : Block)

inductive Block where
  | mk (loc : Loc) (stmts : List Stmt)

inductive Stmt where
  | localVars (loc : Loc) (names : List String) (values : List Expr) (types : List Annotation)
  | localFunction (loc : Loc) (name : String) (f : Function)
  | assign (loc : Loc) (targets : List Expr) (values : List Expr)
  | expr (loc : Loc) (e : Expr)
  | scope (loc : Loc) (body : Block)
  | whileLoop (loc : Loc) (condition : Expr) (body : Block)
  | repeatLoop (loc : Loc) (body : Block) (condition : Expr)
  | ifElse (loc : Loc) (condition : Expr) (body : Block) (clauses : List Clause)
      (otherwise : Option Block)
  | numericFor (loc : Loc) (counter : String) (start stop : Expr) (step : Option Expr)
      (body : Block)
  | genericFor (loc : Loc) (names : List String) (iterators : List Expr) (body : Block)
  | returnValues (loc : Loc) (values : List Expr)
  | breakLoop (loc : Loc)

end

instance : Inhabited Expr := ⟨.nil none⟩
instance : Inhabited Block := ⟨.mk none []⟩
instance : Inhabited Stmt := ⟨.breakLoop none⟩
instance : Inhabited Function := ⟨.mk none [] false default [] none none⟩

/-- A unit of source text: its statements, and the last directive on type checks if it has one. -/
structure Chunk where
  loc : Loc
  body : Block
  typecheck : Option Bool

namespace Expr

def loc : Expr → Loc
  | nil l | bool l _ | number l _ | string l _ | vararg l | name l _ | signature l _ _
  | table l _ | binary l _ _ _ | unary l _ _ | call l _ _ | method l _ _ _ | index l _ _
  | paren l _ | block l _ _ => l
  | function (.mk l ..) => l

/-- Reading the expression twice has no effect and gives the same value. -/
def isTrivial : Expr → Bool
  | nil _ | bool .. | number .. | string .. | name .. => true
  | _ => false

def isMultiValued : Expr → Bool
  | call .. | method .. | vararg _ => true
  | _ => false

def isQualifiedName : Expr → Bool
  | index _ (name ..) (string ..) => true
  | index _ object (string ..) => object.isQualifiedName
  | _ => false

end Expr

namespace Block

def stmts : Block → List Stmt
  | mk _ stmts => stmts

def loc : Block → Loc
  | mk loc _ => loc

end Block

namespace Function

def loc : Function → Loc
  | mk loc .. => loc

def label : Function → Option String
  | mk _ _ _ _ _ _ label => label

end Function

namespace Stmt

def loc : Stmt → Loc
  | localVars l .. | localFunction l .. | assign l .. | expr l _ | scope l _ | whileLoop l ..
  | repeatLoop l .. | ifElse l .. | numericFor l .. | genericFor l .. | returnValues l _
  | breakLoop l => l

end Stmt

end TypedLua
